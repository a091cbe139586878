import EventQuery.Proofs.Eval.Independence
import EventQuery.Proofs.Eval.Run
import EventQuery.Proofs.Eval.Scalars

/-!
Typed code. On events that conform to their definitions, and with accumulators that hold values of
the types of their arguments, code of a static type gives a value of that type or fails because of
the data, and the accumulators afterwards hold values of those types again.
-/

namespace EventQuery

/-! ### Data that conforms to its declaration -/

/-- Every attribute of the event is null or of its declared type. An attribute that is declared
untyped is null. -/
def Event.Conforms (d : Definition) (e : Event) : Prop :=
  ∀ i a, d.attributes[i]? = some a → (e.get i).HasType a.type

/-- The events of a frame conform to the definitions of their slots. -/
def Frame.Conforms (ds : List Definition) (f : Frame) : Prop :=
  ∀ i d e, ds[i]? = some d → f.slot i = some e → e.Conforms d

/-- The rows of every source conform to its definition. -/
def SourceRows.Conforms (sources : String → Option Definition) (rows : SourceRows) : Prop :=
  ∀ source d, sources source = some d → ∀ row ∈ rows source, row.Conforms d

theorem Frame.Conforms.extend {ds : List Definition} {f : Frame} (hf : f.Conforms ds)
    {d : Definition} {row : Event} (hrow : row.Conforms d) :
    (f.setSlot ds.length (some row)).Conforms (ds ++ [d]) := by
  intro i d' e hd he
  rw [Frame.slot_setSlot] at he
  split at he
  · rename_i hlast
    subst hlast
    rw [List.getElem?_concat_length] at hd
    cases hd
    cases he
    exact hrow
  · rename_i hother
    have hi : i < ds.length := by
      have := (List.getElem?_eq_some_iff.1 hd).1
      rw [List.length_append, List.length_singleton] at this
      omega
    rw [List.getElem?_append_left hi] at hd
    exact hf i d' e hd he

namespace Accumulator

variable {a : Accumulator} {type argument : AttributeType} {v : Value} {kind : FoldKind}

/-- The live values of an accumulator are of one type. -/
def Holds (a : Accumulator) (type : AttributeType) : Prop := ∀ p ∈ a.values, p.1.HasType type

theorem holds_empty (type : AttributeType) : empty.Holds type := nofun

theorem mem_addValue {p : Value × Nat} {m : List (Value × Nat)} (h : p ∈ addValue v m) :
    p.1 = v ∨ ∃ q ∈ m, q.1 = p.1 := by
  induction m with
  | nil => exact .inl (List.mem_singleton.1 h ▸ rfl)
  | cons q rest ih =>
      unfold addValue at h
      cases hc : v.order q.1 <;> simp only [hc, List.mem_cons] at h
      · rcases h with rfl | h | h
        · exact .inl rfl
        · exact .inr ⟨q, List.mem_cons_self, h ▸ rfl⟩
        · exact .inr ⟨p, List.mem_cons_of_mem q h, rfl⟩
      · rcases h with rfl | h
        · exact .inr ⟨q, List.mem_cons_self, rfl⟩
        · exact .inr ⟨p, List.mem_cons_of_mem q h, rfl⟩
      · rcases h with rfl | h
        · exact .inr ⟨_, List.mem_cons_self, rfl⟩
        · exact (ih h).imp_right fun ⟨q', hq', heq⟩ => ⟨q', List.mem_cons_of_mem q hq', heq⟩

theorem mem_removeValue {p : Value × Nat} {m : List (Value × Nat)} (h : p ∈ removeValue v m) :
    ∃ q ∈ m, q.1 = p.1 := by
  induction m with
  | nil => cases h
  | cons q rest ih =>
      unfold removeValue at h
      split at h
      · split at h
        · exact ⟨p, List.mem_cons_of_mem q h, rfl⟩
        · rcases List.mem_cons.1 h with rfl | h
          · exact ⟨q, List.mem_cons_self, rfl⟩
          · exact ⟨p, List.mem_cons_of_mem q h, rfl⟩
      · rcases List.mem_cons.1 h with rfl | h
        · exact ⟨_, List.mem_cons_self, rfl⟩
        · obtain ⟨q', hq', heq⟩ := ih h
          exact ⟨q', List.mem_cons_of_mem q hq', heq⟩

theorem step_meets (a : Accumulator) (added : Bool) :
    Meets (fun b => b.values = a.values) (a.step added) := by
  rcases step_cases a added with hstep | hstep <;> rw [hstep]
  · rfl
  · exact .inl rfl

theorem addToSums_meets (a : Accumulator) (v : Value) (added : Bool) :
    Meets (fun b => b.values = a.values) (a.addToSums v added) := by
  rcases addToSums_cases a v added with ⟨sumLong, sumDouble, hsums⟩ | ⟨hsums, -⟩ <;> rw [hsums]
  · rfl
  · exact .inl rfl

/-- A value of the type of the argument may be folded into an accumulator. -/
theorem Holds.fold (h : a.Holds type) (hv : v.HasType type) (kind : FoldKind) (added : Bool) :
    Meets (fun b => b.Holds type) (a.fold kind v added) := by
  unfold Accumulator.fold
  split
  · exact h
  · refine (step_meets a added).bind fun b hb => ?_
    have hholds : b.Holds type := fun p hp => h p (hb ▸ hp)
    -- Sums leave the live values alone; extrema add the value or take one away.
    cases kind with
    | sum | avg => exact (addToSums_meets b v added).mono fun c hc p hp => hholds p (hc ▸ hp)
    | min | max =>
        intro p hp
        cases added with
        | true =>
            rcases mem_addValue hp with heq | ⟨q, hq, heq⟩
            · exact heq ▸ hv
            · exact heq ▸ hholds q hq
        | false =>
            obtain ⟨q, hq, heq⟩ := mem_removeValue hp
            exact heq ▸ hholds q hq

theorem resultType_sum (h : FoldKind.sum.resultType argument = .ok type) :
    type = .long ∨ type = .double := by
  cases argument <;> cases h <;> simp

theorem resultType_avg (h : FoldKind.avg.resultType argument = .ok type) : type = .double := by
  cases argument <;> cases h <;> rfl

theorem resultType_extremum (hkind : kind = .min ∨ kind = .max)
    (h : kind.resultType argument = .ok type) : type = argument := by
  rcases hkind with rfl | rfl <;> cases argument <;> cases h <;> rfl

/-- The value of an aggregate is of the type of its result. -/
theorem Holds.result_hasType (h : a.Holds argument) (htype : kind.resultType argument = .ok type) :
    (a.result kind type).HasType type := by
  have hlive {p : Option (Value × Nat)} (hp : ∀ q, p = some q → q ∈ a.values) :
      ((p.map Prod.fst).getD Value.null).HasType argument := by
    cases p with
    | none => exact Value.hasType_null _
    | some q => exact h q (hp q rfl)
  cases kind with
  | sum => rcases resultType_sum htype with rfl | rfl <;> exact .inr rfl
  | avg =>
      obtain rfl := resultType_avg htype
      unfold result
      dsimp only
      split
      · exact Value.hasType_null _
      · exact .inr rfl
  | min =>
      obtain rfl := resultType_extremum (.inl rfl) htype
      exact hlive fun q hq => List.mem_of_head? hq
  | max =>
      obtain rfl := resultType_extremum (.inr rfl) htype
      exact hlive fun q hq => List.mem_of_getLast? hq

theorem identity_hasType (htype : kind.resultType argument = .ok type) :
    (identity kind type).HasType type := by
  cases kind with
  | sum => rcases resultType_sum htype with rfl | rfl <;> exact .inr rfl
  | avg | min | max => exact Value.hasType_null _

end Accumulator

namespace Memory

variable {cells : Nat → AttributeType} {m : Memory}

/-- Every accumulator holds values of the type of its cell. -/
def Holds (cells : Nat → AttributeType) (m : Memory) : Prop := ∀ i, (m.read i).Holds (cells i)

theorem holds_fresh (cells : Nat → AttributeType) (count : Nat) : (fresh count).Holds cells := by
  intro i
  rw [read_fresh]
  exact Accumulator.holds_empty _

theorem Holds.write (h : m.Holds cells) {i : Nat} {a : Accumulator} (ha : a.Holds (cells i)) :
    (m.write i a).Holds cells := by
  intro j
  by_cases hij : i = j
  · subst hij
    by_cases hi : i < m.cells.length
    · exact read_write_self hi ▸ ha
    · have hread : (m.write i a).read i = m.read i := by simp [Memory.write, read, hi]
      exact hread ▸ h i
  · rw [read_write_of_ne hij]
    exact h j

end Memory

namespace Run

variable {α β : Type} {inv : Memory → Prop} {pre post : α → Prop} {x : Run EvalError α}

/-- From memories with an invariant, a computation keeps the invariant, also where it fails, and has
an outcome that typed expressions may have. -/
def Ensures (inv : Memory → Prop) (x : Run EvalError α) (post : α → Prop) : Prop :=
  ∀ m, inv m → inv (x m).2 ∧ Meets post (x m).1

theorem Ensures.bind {post : β → Prop} {k : α → Run EvalError β} (hx : Ensures inv x pre)
    (hk : ∀ a, pre a → Ensures inv (k a) post) : Ensures inv (x >>= k) post := by
  intro m hm
  obtain ⟨hinv, hmeets⟩ := hx m hm
  rcases hrun : x m with ⟨e | a, m'⟩ <;> rw [hrun] at hinv hmeets
  · rw [bind_of_error hrun]
    exact ⟨hinv, hmeets⟩
  · rw [bind_of_ok hrun]
    exact hk a hmeets m' hinv

/-- The invariant holds of the memory that is left. -/
theorem Ensures.memory (hx : Ensures inv x post) {m m' : Memory} {r : Except EvalError α}
    (hm : inv m) (h : x m = (r, m')) : inv m' := by
  have hinv := (hx m hm).1
  rwa [h] at hinv

theorem Ensures.result (hx : Ensures inv x post) {m m' : Memory} {a : α} (hm : inv m)
    (h : x m = (.ok a, m')) : post a := by
  have hmeets := (hx m hm).2
  rwa [h] at hmeets

theorem ensures_pure {a : α} (ha : post a) : Ensures inv (pure a : Run EvalError α) post :=
  fun _ hm => ⟨hm, ha⟩

theorem ensures_ofExcept {r : Except EvalError α} (hr : Meets post r) :
    Ensures inv (ofExcept r) post := by
  intro m hm
  rw [run_ofExcept]
  exact ⟨hm, hr⟩

theorem ensures_anyM {test : α → Run EvalError Bool} {as : List α}
    (h : ∀ a ∈ as, Ensures inv (test a) fun _ => True) :
    Ensures inv (anyM test as) fun _ => True := by
  induction as with
  | nil => exact ensures_pure trivial
  | cons a rest ih =>
      refine (h a List.mem_cons_self).bind fun passes _ => ?_
      cases passes
      · exact ih fun b hb => h b (List.mem_cons_of_mem a hb)
      · exact ensures_pure trivial

variable {cells : Nat → AttributeType}

theorem ensures_readCell (i : Nat) :
    Ensures (Memory.Holds cells) (readCell i) fun a => a.Holds (cells i) :=
  fun _ hm => ⟨hm, hm i⟩

theorem ensures_writeCell {i : Nat} {a : Accumulator} (ha : a.Holds (cells i)) :
    Ensures (Memory.Holds cells) (writeCell i a) fun _ => True :=
  fun _ hm => ⟨hm.write ha, trivial⟩

end Run

/-- What typed code relies on: the functions follow their rules for types, and the rows of the
sources conform to their definitions. -/
structure Context.IsTyped (context : Context) (rows : SourceRows) : Prop where
  functions : ∀ f ∈ context.functions, f.IsTyped
  rows : rows.Conforms context.source?

namespace Code

variable {context : Context} {cells : Nat → AttributeType}

mutual

/-- Code is typed over slots with given definitions. Its parts have static types that its operation
accepts, and its type is the one that the operation gives. An aggregate owns a cell of the type of
its argument. -/
def Typed (context : Context) (cells : Nat → AttributeType) :
    Code → List Definition → Prop
  | .const _, _ | .slotEmpty _, _ | .count _, _ => True
  | .read slot position type, ds =>
    ∃ d, ds[slot]? = some d ∧ (d.attributes[position]?).map (·.type) = some type
  | .and l r, ds | .or l r, ds => Typed context cells l ds ∧ Typed context cells r ds
  | .not e, ds | .isNull e, ds => Typed context cells e ds
  | .compare op l r, ds =>
    Typed context cells l ds ∧ Typed context cells r ds ∧
      Compile.checkComparable op l.type r.type = .ok ()
  | .arith op l r type, ds =>
    Typed context cells l ds ∧ Typed context cells r ds ∧
      Compile.arithType op l.type r.type = .ok type
  | .call f args type, ds =>
    AllTyped context cells args ds ∧ f.arity.accepts args.length = true ∧
      f.resultType (args.map Code.type) = .ok type ∧ f ∈ context.functions
  | .fold kind argument type cell, ds =>
    Typed context cells argument ds ∧ cells cell = argument.type ∧
      kind.resultType argument.type = .ok type
  | .member condition source slot, ds =>
    slot = ds.length ∧
      ∃ d, context.source? source = some d ∧ Typed context cells condition (ds ++ [d])

/-- Every argument of a list is typed. -/
def AllTyped (context : Context) (cells : Nat → AttributeType) :
    List Code → List Definition → Prop
  | [], _ => True
  | c :: cs, ds => Typed context cells c ds ∧ AllTyped context cells cs ds

end

open Run

/-! ### What typed code gives -/

theorem read_hasType {ds : List Definition} {slot position : Nat} {type : AttributeType} {f : Frame}
    (h : Typed context cells (.read slot position type) ds) (hf : f.Conforms ds) :
    (((f.slot slot).map fun e : Event => e.get position).getD Value.null).HasType type := by
  obtain ⟨d, hd, htype⟩ := h
  obtain ⟨a, ha, rfl⟩ := Option.map_eq_some_iff.1 htype
  cases he : f.slot slot with
  | none => exact Value.hasType_null _
  | some e => exact hf slot d e hd he position a ha

theorem ensures_runCount (cell : Nat) (kind : EventKind) :
    Ensures (Memory.Holds cells) (runCount cell kind) fun v => v.HasType .long := by
  have hstep (added : Bool) : Ensures (Memory.Holds cells)
      (do
        let a ← Run.readCell cell
        let a ← Run.ofExcept (a.step added)
        Run.writeCell cell a
        return .long (.ofInt a.count) : Run EvalError Value) fun v => v.HasType .long := by
    refine (ensures_readCell cell).bind fun a ha => ?_
    refine (ensures_ofExcept (a.step_meets added)).bind fun b hb => ?_
    refine (ensures_writeCell fun p hp => ha p (hb ▸ hp)).bind fun _ _ => ensures_pure ?_
    exact .inr rfl
  cases kind with
  | reset =>
      refine (ensures_writeCell (Accumulator.holds_empty _)).bind fun _ _ => ensures_pure ?_
      exact .inr rfl
  | current => exact hstep true
  | expired => exact hstep false

theorem ensures_runFold {cell : Nat} {kind : FoldKind} {argument type : AttributeType}
    (hcell : cells cell = argument) (htype : kind.resultType argument = .ok type) (added : Bool)
    {v : Value} (hv : v.HasType argument) :
    Ensures (Memory.Holds cells) (runFold cell kind type added v) fun v => v.HasType type := by
  refine (ensures_readCell cell).bind fun a ha => ?_
  refine (ensures_ofExcept (ha.fold (hcell ▸ hv) kind added)).bind fun b hb => ?_
  exact (ensures_writeCell hb).bind fun _ _ => ensures_pure ((hcell ▸ hb).result_hasType htype)

mutual

/-- Typed code gives a value of its static type. -/
theorem ensures_run {rows : SourceRows} (hcontext : context.IsTyped rows) :
    ∀ (c : Code) {ds : List Definition} {f : Frame}, c.Typed context cells ds → f.Conforms ds →
      Ensures (Memory.Holds cells) (c.run rows f) fun v => v.HasType c.type
  | .const v, _, _, _, _ => ensures_pure (Value.hasType_type v)
  | .slotEmpty _, _, _, _, _ => ensures_pure (Value.hasType_bool _)
  | .read _ _ _, _, _, h, hf => ensures_pure (read_hasType h hf)
  | .and l r, _, _, h, hf => by
      refine (ensures_run hcontext l h.1 hf).bind fun a _ => ?_
      split
      · exact (ensures_run hcontext r h.2 hf).bind fun _ _ => ensures_pure (Value.hasType_bool _)
      · exact ensures_pure (Value.hasType_bool _)
  | .or l r, _, _, h, hf => by
      refine (ensures_run hcontext l h.1 hf).bind fun a _ => ?_
      split
      · exact ensures_pure (Value.hasType_bool _)
      · exact (ensures_run hcontext r h.2 hf).bind fun _ _ => ensures_pure (Value.hasType_bool _)
  | .not e, _, _, h, hf =>
      (ensures_run hcontext e h hf).bind fun _ _ => ensures_pure (Value.hasType_bool _)
  | .isNull e, _, _, h, hf =>
      (ensures_run hcontext e h hf).bind fun _ _ => ensures_pure (Value.hasType_bool _)
  | .compare op l r, _, _, h, hf =>
      (ensures_run hcontext l h.1 hf).bind fun _ _ =>
        (ensures_run hcontext r h.2.1 hf).bind fun _ _ => ensures_pure (Value.hasType_bool _)
  | .arith op l r type, _, _, h, hf =>
      (ensures_run hcontext l h.1 hf).bind fun _ ha =>
        (ensures_run hcontext r h.2.1 hf).bind fun _ hb =>
          ensures_ofExcept (Arithmetic.apply_meets ha hb h.2.2)
  | .call fn args type, _, _, h, hf => by
      obtain ⟨hargs, harity, htype, hfn⟩ := h
      refine (ensures_runAll hcontext args hargs hf).bind fun vs hvs => ?_
      have hlength : vs.length = args.length := hvs.length_eq.trans (List.length_map Code.type)
      have hmeets := hcontext.functions fn hfn vs _ type (hlength ▸ harity) hvs htype
      exact (ensures_ofExcept hmeets).bind fun v hv => ensures_pure hv
  | .count cell, _, f, _, _ => ensures_runCount cell f.kind
  | .fold kind argument type cell, _, f, h, hf => by
      obtain ⟨hargument, hcell, htype⟩ := h
      unfold run
      split
      · exact (ensures_writeCell (Accumulator.holds_empty _)).bind fun _ _ =>
          ensures_pure (Accumulator.identity_hasType htype)
      · exact (ensures_run hcontext argument hargument hf).bind fun _ hv =>
          ensures_runFold hcell htype true hv
      · exact (ensures_run hcontext argument hargument hf).bind fun _ hv =>
          ensures_runFold hcell htype false hv
  | .member condition source slot, _, f, h, hf => by
      obtain ⟨rfl, d, hd, hcondition⟩ := h
      -- A row stands in the slot behind those of the frame, where its definition is expected.
      refine (ensures_anyM fun row hrow => ?_).bind fun _ _ => ensures_pure (Value.hasType_bool _)
      have hextended := hf.extend (hcontext.rows source d hd row hrow)
      exact (ensures_run hcontext condition hcondition hextended).bind
        fun _ _ => ensures_pure trivial

theorem ensures_runAll {rows : SourceRows} (hcontext : context.IsTyped rows) :
    ∀ (cs : List Code) {ds : List Definition} {f : Frame}, AllTyped context cells cs ds →
      f.Conforms ds → Ensures (Memory.Holds cells) (runAll rows cs f) fun vs =>
        List.Forall₂ Value.HasType vs (cs.map Code.type)
  | [], _, _, _, _ => ensures_pure .nil
  | c :: cs, _, _, h, hf =>
      (ensures_run hcontext c h.1 hf).bind fun _ hv =>
        (ensures_runAll hcontext cs h.2 hf).bind fun _ hvs => ensures_pure (.cons hv hvs)

end

theorem ensures_test {rows : SourceRows} (hcontext : context.IsTyped rows) {c : Code}
    {ds : List Definition} {f : Frame} (hc : c.Typed context cells ds) (hf : f.Conforms ds) :
    Ensures (Memory.Holds cells) (c.test rows f) fun _ => True :=
  (ensures_run hcontext c hc hf).bind fun _ _ => ensures_pure trivial

theorem AllTyped.of_append {ds : List Definition} {c : Code} {before after : List Code}
    (h : AllTyped context cells (before ++ c :: after) ds) :
    AllTyped context cells before ds ∧ c.Typed context cells ds := by
  induction before with
  | nil => exact ⟨trivial, h.1⟩
  | cons b before ih =>
      obtain ⟨hbefore, hc⟩ := ih h.2
      exact ⟨⟨h.1, hbefore⟩, hc⟩

end Code

end EventQuery
