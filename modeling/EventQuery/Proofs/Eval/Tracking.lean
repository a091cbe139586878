import EventQuery.Proofs.Eval.Accumulation
import EventQuery.Proofs.Eval.Counted
import EventQuery.Proofs.Eval.Widening
import Mathlib.Data.Int.ModEq

/-!
What aggregates return along a run: the number of current events less that of the expired ones, the
sum of integers modulo 2^64, or the least or greatest of the live values, each over the events since
the last reset and in whatever order they come.
-/

namespace EventQuery

open Run

/-! ### Counts -/

/-- A count is the number of current events less that of the expired ones. -/
def IsCount (inputs : List (SourceRows × Frame)) (v : Value) : Prop :=
  ∃ l : Int64, v = .long l ∧ l.toInt =
    (inputs.countP (·.2.kind = .current) : Int) - inputs.countP (·.2.kind = .expired)

/-- A count that a step leaves is within the 64-bit integers. -/
theorem Accumulator.toInt_count_of_step {a b : Accumulator} {added : Bool}
    (h : a.step added = .ok b) : (Int64.ofInt b.count).toInt = b.count := by
  unfold step at h
  extract_lets count at h
  split at h
  · rename_i hrange
    have hcount : b.count = count := by
      cases h
      rfl
    rw [Int64.toInt_minValue, Int64.toInt_maxValue] at hrange
    rw [hcount]
    exact Int64.toInt_ofInt_of_le (by omega) (by omega)
  · cases h

theorem isCount_of_foldlM {inputs : List (SourceRows × Frame)} {a : Accumulator}
    (hkinds : ∀ input ∈ inputs, input.2.kind ≠ .reset)
    (h : inputs.foldlM Code.countStep .empty = .ok a) :
    IsCount inputs (.long (.ofInt a.count)) := by
  suffices hcount : (Int64.ofInt a.count).toInt = a.count ∧ a.count =
      (inputs.countP (·.2.kind = .current) : Int) - inputs.countP (·.2.kind = .expired) from
    ⟨_, rfl, hcount.1.trans hcount.2⟩
  induction inputs using List.reverseRecOn generalizing a with
  | nil =>
      cases h
      exact ⟨rfl, rfl⟩
  | append_singleton inputs input ih =>
      rw [List.foldlM_append] at h
      obtain ⟨b, hb, h⟩ := bind_eq_ok.1 h
      obtain ⟨c, hstep, hc⟩ := bind_eq_ok.1 h
      cases hc
      obtain ⟨-, hcount⟩ := ih (fun i hi => hkinds i (List.mem_append_left _ hi)) hb
      refine ⟨Accumulator.toInt_count_of_step hstep, ?_⟩
      rw [Accumulator.step_count hstep, hcount, List.countP_append, List.countP_append,
        List.countP_singleton, List.countP_singleton]
      cases hkind : input.2.kind with
      | reset => exact absurd hkind (hkinds input (by simp))
      | current | expired =>
          simp only [decide_true, decide_false, reduceCtorEq, Bool.false_eq_true, if_true, if_false]
          omega

/-! ### Arguments -/

/-- The events of a definition: each attribute is null or of its declared type, and an untyped one
may be anything. -/
def Event.Fits (d : Definition) (e : Event) : Prop :=
  ∀ i a, d.attributes[i]? = some a → a.type = .object ∨ (e.get i).HasType a.type

/-- The events of a frame fit the definitions of their slots. -/
def Frame.Fits (ds : List Definition) (f : Frame) : Prop :=
  ∀ i d e, ds[i]? = some d → f.slot i = some e → e.Fits d

theorem Value.suits_of_type {v : Value} {type : AttributeType} (h : v.type = type) :
    v.Suits type := fun _ => h

theorem Value.HasType.suits {v : Value} {type : AttributeType} (h : v.HasType type) :
    v.Suits type := by
  rcases h with rfl | h
  · nofun
  · exact suits_of_type h

theorem Code.conform_suits {type : AttributeType} (htype : type.isNumeric = true) (v : Value) :
    (conform type v).Suits type := by
  cases hv : v.type.isNumeric with
  | true =>
      obtain ⟨w, hcast, hw⟩ := Value.exists_castNumeric hv htype
      unfold conform
      split
      · rw [hcast, Option.getD_some]
        exact Value.suits_of_type hw
      · rename_i hsame
        exact Value.suits_of_type (by simpa [htype] using hsame)
  | false =>
      -- What is no number is left as it is.
      have hsame : conform type v = v := by
        cases v <;> cases type <;> first | rfl | cases hv
      intro hnumeric
      rw [hsame, hv] at hnumeric
      cases hnumeric

theorem Arithmetic.apply_suits {op : Arithmetic} {a b v : Value} {type : AttributeType}
    (htype : type ≠ .object) (h : op.apply a b type = .ok v) : v.Suits type := by
  unfold apply at h
  split at h
  · cases h
    nofun
  · exact Value.suits_of_type (type_of_applyIn h)

/-- Where plain code is of an integer type, the numbers that it gives are of that type, also where
its parts are untyped. -/
theorem Code.value_suits {context : Context} {cells : Nat → AttributeType}
    {ds : List Definition} {rows : SourceRows} {f : Frame} {c : Code} {v : Value}
    (htyped : c.Typed context cells ds) (hf : f.Fits ds) (hc : c.isStateless = true)
    (htype : c.type = .int ∨ c.type = .long) (h : c.value rows f = .ok v) : v.Suits c.type := by
  have hnumeric : c.type.isNumeric = true := by rcases htype with ht | ht <;> rw [ht] <;> rfl
  have hobject : c.type ≠ .object := by rcases htype with ht | ht <;> rw [ht] <;> nofun
  cases c with
  | const w =>
      cases h
      exact Value.suits_of_type rfl
  | read slot position type =>
      cases h
      obtain ⟨d, hd, hdeclared⟩ := htyped
      obtain ⟨a, ha, rfl⟩ := Option.map_eq_some_iff.1 hdeclared
      cases he : f.slot slot with
      | none => nofun
      | some e => exact ((hf slot d e hd he position a ha).resolve_left hobject).suits
  | arith op l r type =>
      simp only [value] at h
      obtain ⟨a, -, h⟩ := bind_eq_ok.1 h
      obtain ⟨b, -, h⟩ := bind_eq_ok.1 h
      exact Arithmetic.apply_suits hobject h
  | call fn args type =>
      simp only [value] at h
      obtain ⟨vs, -, h⟩ := bind_eq_ok.1 h
      obtain ⟨w, -, h⟩ := bind_eq_ok.1 h
      cases h
      exact conform_suits hnumeric w
  | count | fold => cases hc
  | and | or | not | compare | member | isNull | slotEmpty => cases hnumeric

namespace Evaluator

variable {c : Code} {m : Memory} {inputs inputs' : List (SourceRows × Frame)} {kind : FoldKind}
  {a : Accumulator}

/-- What inputs do to an aggregate of an argument: a current event adds the value of the argument,
an expired one takes it away. -/
def changes (argument : Evaluator) (inputs : List (SourceRows × Frame)) : List Change :=
  inputs.map fun input =>
    ⟨(argument.eval input.1 input.2).1.toOption.getD .null, input.2.kind = .current⟩

theorem eval_of_isStateless (hc : c.isStateless = true) (rows : SourceRows) (f : Frame) :
    (eval ⟨c, m⟩ rows f).1 = c.value rows f := by
  rw [eval, Stateful.run, Code.run_eq_value rows c f hc, run_ofExcept]

/-- The accumulator of a fold is that of the changes. -/
theorem ofChanges_changes (hc : c.isStateless = true)
    (h : inputs.foldlM (Code.foldStep kind c) .empty = .ok a) :
    Accumulator.ofChanges kind (changes ⟨c, m⟩ inputs) = .ok a := by
  unfold Accumulator.ofChanges
  generalize Accumulator.empty = start at h
  induction inputs generalizing start with
  | nil => exact h
  | cons input rest ih =>
      rw [List.foldlM_cons] at h
      obtain ⟨b, hstep, h⟩ := bind_eq_ok.1 h
      obtain ⟨x, hx, hfold⟩ := bind_eq_ok.1 hstep
      rw [changes, List.map_cons, List.foldlM_cons, eval_of_isStateless hc, hx]
      exact bind_eq_ok.2 ⟨b, hfold, ih b h⟩

theorem suits_changes {context : Context} {cells : Nat → AttributeType}
    {ds : List Definition} (htyped : c.Typed context cells ds) (hc : c.isStateless = true)
    (htype : c.type = .int ∨ c.type = .long) (hfits : ∀ input ∈ inputs, input.2.Fits ds) :
    ∀ change ∈ changes ⟨c, m⟩ inputs, change.value.Suits c.type := by
  intro change hchange
  obtain ⟨input, hinput, rfl⟩ := List.mem_map.1 hchange
  rw [eval_of_isStateless hc]
  cases hvalue : c.value input.1 input.2 with
  | error e => nofun
  | ok v => exact Code.value_suits htyped (hfits input hinput) hc htype hvalue

end Evaluator

/-! ### The aggregates -/

/-- A sum is congruent to that of the integers that are added, less those that are taken away. -/
def IsSum (changes : List Change) (v : Value) : Prop :=
  ∃ l : Int64, v = .long l ∧ l.toInt ≡ Change.total changes [ZMOD 2 ^ 64]

theorem isSum_ofInt (changes : List Change) :
    IsSum changes (.long (.ofInt (Change.total changes))) := by
  refine ⟨_, rfl, ?_⟩
  rw [Int64.toInt_ofInt]
  exact Int.bmod_emod

/-- An integer of 64 bits is known modulo 2^64. -/
theorem eq_of_toInt_modEq {i j : Int64} (h : i.toInt ≡ j.toInt [ZMOD 2 ^ 64]) : i = j := by
  have hword (l : Int64) : (l.toInt % (2 ^ 64 : Nat)).bmod (2 ^ 64) = l.toInt :=
    (Int.emod_bmod ..).trans (Int64.toInt_bmod l)
  rw [← Int64.toInt_inj, ← hword i, ← hword j]
  exact congrArg (Int.bmod · (2 ^ 64)) h

/-- Where the order tells values apart, one value alone is first. -/
theorem Extremum.unique {before : Value → Value → Prop} {s : Multiset Value} {v w : Value}
    (hsame : ∀ v ∈ s, ∀ w ∈ s, before v w → before w v → v = w) (hv : Extremum before s v)
    (hw : Extremum before s w) : v = w := by
  cases hnull : v.isNull with
  | true =>
      cases hnull' : w.isNull with
      | true => rw [Value.isNull_iff_eq_null.1 hnull, Value.isNull_iff_eq_null.1 hnull']
      | false =>
          rw [(hv.first w (hw.mem hnull') hnull').1] at hnull
          cases hnull
  | false =>
      obtain ⟨hnull', hbefore⟩ := hw.first v (hv.mem hnull) hnull
      exact hsame v (hv.mem hnull) w (hw.mem hnull') (hv.first w (hw.mem hnull') hnull').2 hbefore

namespace Compile

open Allot

variable {context : Context} {layout : Layout} {e : Expr} {c : Code} {kind : FoldKind}
  {type : AttributeType}

theorem ofExpr_count (context : Context) (layout : Layout) :
    Evaluator.ofExpr context (.call none "count" []) layout = .ok ⟨.count 0, .fresh 1⟩ := by
  have hcode : code context (.call none "count" []) layout 0 = .ok (.count 0, 1) := by
    simp only [code]
    rfl
  exact Allot.finish_eq_ok.2 ⟨_, _, hcode, rfl⟩

theorem ofExpr_fold (hc : Compiles context layout e c) (htype : kind.resultType c.type = .ok type) :
    Evaluator.ofExpr context (.call none kind.name [e]) layout =
      .ok ⟨.fold kind c type 0, .fresh 1⟩ := by
  have hkind : aggregateOf none kind.name = some (.fold kind) := by cases kind <;> rfl
  have hargs : codes context [e] layout 0 = .ok ([c], 0) :=
    codes_cons.2 ⟨c, [], 0, hc.constant 0, rfl, rfl⟩
  have hcode : code context (.call none kind.name [e]) layout 0 = .ok (.fold kind c type 0, 1) := by
    simp only [code, hkind]
    rw [if_neg (by simp)]
    refine bind_eq_ok.2 ⟨[c], 0, hargs, ?_⟩
    unfold aggregate
    refine bind_eq_ok.2 ⟨type, 0, lift_eq_ok.2 ⟨htype, rfl⟩, ?_⟩
    rfl
  exact Allot.finish_eq_ok.2 ⟨_, _, hcode, rfl⟩

end Compile

namespace Evaluator

variable {c : Code} {m : Memory} {kind : FoldKind}

theorem tracks_count : Tracks ⟨.count 0, .fresh 1⟩ (fun _ => True) IsCount (.long 0) := by
  refine tracks_of_accumulates Code.accumulates_count
    (fun inputs a hkinds hfold _ => isCount_of_foldlM hkinds hfold)
    (fun inputs inputs' v v' hperm _ hv hv' => ?_) rfl
  obtain ⟨i, rfl, hi⟩ := hv
  obtain ⟨j, rfl, hj⟩ := hv'
  rw [hperm.countP_eq, hperm.countP_eq] at hi
  rw [Int64.toInt_inj.1 (hi.trans hj.symm)]

theorem changes_perm (argument : Evaluator) {inputs inputs' : List (SourceRows × Frame)}
    (h : inputs.Perm inputs') : (argument.changes inputs).Perm (argument.changes inputs') := h.map _

theorem tracks_sum (hc : c.isStateless = true) :
    Tracks ⟨.fold .sum c .long 0, .fresh 1⟩ (fun _ => True)
      (fun inputs => IsSum (changes ⟨c, m⟩ inputs)) (.long 0) := by
  refine tracks_of_accumulates (Code.accumulates_fold hc) (fun inputs a _ hfold _ => ?_)
    (fun inputs inputs' v v' hperm _ hv hv' => ?_) rfl
  · have hsum := Accumulator.sumLong_ofChanges (ofChanges_changes (m := m) hc hfold)
    rw [Accumulator.result, if_pos rfl, hsum]
    exact isSum_ofInt _
  · obtain ⟨i, rfl, hi⟩ := hv
    obtain ⟨j, rfl, hj⟩ := hv'
    rw [Change.total_perm (changes_perm _ hperm)] at hi
    rw [eq_of_toInt_modEq (hi.trans hj.symm)]

/-- The events fit their definitions, and whatever expires has a live copy. -/
def FitsBalanced (ds : List Definition) (argument : Evaluator)
    (inputs : List (SourceRows × Frame)) : Prop :=
  (∀ input ∈ inputs, input.2.Fits ds) ∧ Change.Balanced (argument.changes inputs)

/-- An extremum of an integer argument keeps its promise in an order that tells values apart. -/
theorem tracks_extremum {context : Context} {cells : Nat → AttributeType}
    {ds : List Definition} {before : Value → Value → Prop} (htyped : c.Typed context cells ds)
    (hc : c.isStateless = true) (htype : c.type = .int ∨ c.type = .long)
    (hbefore : ∀ v w, before v w → before w v → v.same w = true)
    (hresult : ∀ changes a, (∀ change ∈ changes, change.value.Suits c.type) →
      Change.Balanced changes → Accumulator.ofChanges kind changes = .ok a →
      Extremum before (Change.live changes) (a.result kind c.type))
    (hempty : Accumulator.empty.result kind c.type = .null) :
    Tracks ⟨.fold kind c c.type 0, .fresh 1⟩ (FitsBalanced ds ⟨c, m⟩)
      (fun inputs => Extremum before (Change.live (changes ⟨c, m⟩ inputs))) .null := by
  refine tracks_of_accumulates (Code.accumulates_fold hc) (fun inputs a _ hfold hadmits => ?_)
    (fun inputs inputs' v v' hperm hadmits hv hv' => ?_) hempty
  · obtain ⟨hfits, hbalanced⟩ := hadmits
    exact hresult _ a (suits_changes htyped hc htype hfits) hbalanced (ofChanges_changes hc hfold)
  · rw [← Change.live_perm (changes_perm _ hperm)] at hv'
    have hsuits := suits_changes (m := m) htyped hc htype hadmits.1
    refine Extremum.unique (fun u hu w hw huw hwu => ?_) hv hv'
    obtain ⟨change, hchange, rfl⟩ := Change.exists_of_mem_live hu
    obtain ⟨change', hchange', rfl⟩ := Change.exists_of_mem_live hw
    exact (hsuits _ hchange).eq_of_same htype (hsuits _ hchange') (hbefore _ _ huw hwu)

/-- Aggregates track the live values. Along every run of successful evaluations, each of them but
the average returns what the events since the last reset make up. A count returns the number of
current events less that of the expired ones. A sum of an integer argument returns the integer that
is congruent modulo 2^64 to the sum of the arguments that are not null, less that of the expired
ones. An extremum returns the least or greatest of the arguments that have been added and not yet
expired, and null where there are none, provided that the events are as declared and that every
argument which expires has a live copy. No value depends on the order of the events. A reset returns
zero for a count and a sum, and null for an extremum. -/
theorem aggregates_track (context : Context) (layout : Layout) :
    (∃ ev, ofExpr context (.call none "count" []) layout = .ok ev ∧
      Tracks ev (fun _ => True) IsCount (.long 0)) ∧
    ∀ e argument, e.isAggregateFree = true → ofExpr context e layout = .ok argument →
      argument.code.type = .int ∨ argument.code.type = .long →
      (∃ ev, ofExpr context (.call none "sum" [e]) layout = .ok ev ∧
        Tracks ev (fun _ => True) (fun inputs => IsSum (argument.changes inputs)) (.long 0)) ∧
      (∃ ev, ofExpr context (.call none "min" [e]) layout = .ok ev ∧
        Tracks ev (FitsBalanced layout.definitions argument)
          (fun inputs => Extremum (fun v w => (v.order w).isLE = true)
            (Change.live (argument.changes inputs))) .null) ∧
      ∃ ev, ofExpr context (.call none "max" [e]) layout = .ok ev ∧
        Tracks ev (FitsBalanced layout.definitions argument)
          (fun inputs => Extremum (fun v w => (w.order v).isLE = true)
            (Change.live (argument.changes inputs))) .null := by
  refine ⟨⟨_, Compile.ofExpr_count context layout, tracks_count⟩,
    fun e argument hfree hargument htype => ?_⟩
  obtain ⟨c, count, hcode, rfl⟩ := Allot.finish_eq_ok.1 hargument
  have hcompiles := Compile.compiles_of_code context e hfree hcode
  have hc := hcompiles.stateless
  obtain ⟨-, cells, htyped⟩ := Compile.typed_of_code context e hcode
  have htyped := htyped cells fun _ _ _ => rfl
  have hsame (v w : Value) (hvw : (v.order w).isLE = true) (hwv : (w.order v).isLE = true) :
      v.same w = true := Value.same_iff.2 (Std.OrientedCmp.isLE_antisymm hvw hwv)
  obtain ⟨hsum, hmin, hmax⟩ : FoldKind.sum.resultType c.type = .ok .long ∧
      FoldKind.min.resultType c.type = .ok c.type ∧
      FoldKind.max.resultType c.type = .ok c.type := by
    rcases htype with ht | ht <;> rw [show c.type = _ from ht] <;> exact ⟨rfl, rfl, rfl⟩
  refine ⟨⟨_, Compile.ofExpr_fold hcompiles hsum, tracks_sum hc⟩,
    ⟨_, Compile.ofExpr_fold hcompiles hmin, ?_⟩, _, Compile.ofExpr_fold hcompiles hmax, ?_⟩
  · exact tracks_extremum htyped hc htype hsame
      (fun _ _ hsuits hbalanced => Accumulator.extremum_min htype hsuits hbalanced) rfl
  · exact tracks_extremum htyped hc htype (fun v w hwv hvw => hsame v w hvw hwv)
      (fun _ _ hsuits hbalanced => Accumulator.extremum_max htype hsuits hbalanced) rfl

namespace Bids

def slots : Layout := .single ⟨"Bid", [⟨"price", .int⟩]⟩

def bid (kind : EventKind) (price : Value) : SourceRows × Frame :=
  (fun _ => [], .single ⟨0, [price], kind⟩)

def price : Evaluator := ⟨.read 0 0 .int, .fresh 0⟩

def highest : Evaluator := ⟨.fold .max (.read 0 0 .int) .int 0, .fresh 1⟩

/-- A bid before a reset, and then the highest bid twice, which is withdrawn twice. -/
def run : List (SourceRows × Frame) :=
  [bid .current (.int 7), bid .reset .null, bid .current (.int 9), bid .current (.int 5),
    bid .current .null, bid .current (.int 9), bid .expired (.int 9), bid .expired (.int 9)]

theorem bid_fits (kind : EventKind) {price : Value} (h : price.HasType .int) :
    (bid kind price).2.Fits slots.definitions := by
  intro slot d e hd he
  match slot with
  | 0 =>
      cases hd
      cases he
      intro position a ha
      match position with
      | 0 =>
          cases ha
          exact .inr h
      | position + 1 => cases ha
  | slot + 1 => cases hd

end Bids

open Bids

/-- The bid that is left is the highest one. -/
theorem aggregates_track_bids :
    ofExpr .standard (.call none "max" [.named "price"]) slots = .ok highest ∧
      highest.Returns run (.int 5) ∧
      Extremum (fun v w => (w.order v).isLE = true)
        (Change.live (price.changes (sinceReset run))) (.int 5) := by
  obtain ⟨-, hfolds⟩ := aggregates_track .standard slots
  obtain ⟨-, -, ev, hev, htracks⟩ := hfolds (.named "price") price rfl rfl (.inl rfl)
  obtain rfl : highest = ev := Except.ok.inj hev
  have hreturns : highest.Returns run (.int 5) :=
    ⟨[.int 7, .null, .int 9, .int 9, .int 9, .int 9, .int 9], by decide +kernel⟩
  have hadmits : FitsBalanced slots.definitions price (sinceReset run) := by
    refine ⟨fun input hinput => ?_, by decide +kernel⟩
    have hinput := (List.rtakeWhile_suffix _ _).subset hinput
    simp only [run, List.mem_cons, List.not_mem_nil, or_false] at hinput
    rcases hinput with rfl | rfl | rfl | rfl | rfl | rfl | rfl | rfl
    all_goals first | exact bid_fits _ (.inl rfl) | exact bid_fits _ (.inr rfl)
  exact ⟨hev, hreturns, htracks.returned run _ hreturns hadmits⟩

end Evaluator

end EventQuery
