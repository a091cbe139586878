import EventQuery.Proofs.Eval.Typing
import EventQuery.Proofs.Rollup.Key
import EventQuery.Proofs.Rollup.Partial
import Mathlib.Data.Multiset.AddSub

/-!
Accumulators that values are added to and taken away from. The sum of integers is kept modulo 2^64,
and the counted values of an extremum are the multiset of the values that have been added and not
yet taken away. What an accumulator holds does therefore not depend on the order of the changes.
-/

namespace EventQuery

/-- Where the value is a number, it is one of the type. -/
def Value.Suits (type : AttributeType) (v : Value) : Prop :=
  v.type.isNumeric = true → v.type = type

/-- Among values whose numbers are integers of one width, equal values are the same. -/
theorem Value.Suits.eq_of_same {type : AttributeType} {v w : Value}
    (htype : type = .int ∨ type = .long) (hv : v.Suits type) (hw : w.Suits type)
    (hsame : v.same w = true) : v = w := by
  have hkind := kind_eq_of_same hsame
  refine Value.eq_of_same (.inr (.inr ?_)) ?_ hsame
  · cases v <;> cases w <;> first | rfl | exact (hv rfl).trans (hw rfl).symm | cases hkind
  · -- The exceptions are a string of another kind and floating point values.
    rintro (⟨rfl, rfl⟩ | ⟨rfl, rfl⟩ | ⟨-, ⟨hzero, -⟩ | ⟨hnan, -⟩⟩)
    · cases hkind
    · cases hkind
    · cases v <;> first | cases hzero | (rcases htype with rfl | rfl <;> cases hv rfl)
    · cases v <;> first | cases hnan | (rcases htype with rfl | rfl <;> cases hv rfl)

namespace Accumulator

variable {kind : FoldKind} {type : AttributeType} {m : List (Value × Nat)} {v : Value}
  {a b : Accumulator}

/-! ### Counted values -/

/-- The values of a counted list, each as often as it is counted. -/
def copies (m : List (Value × Nat)) : Multiset Value :=
  (m.map fun p => Multiset.replicate p.2 p.1).sum

@[simp] theorem copies_nil : copies [] = 0 := rfl

@[simp] theorem copies_cons (p : Value × Nat) (rest : List (Value × Nat)) :
    copies (p :: rest) = Multiset.replicate p.2 p.1 + copies rest := rfl

/-- A counted list is in strictly ascending order, counts every value at least once, and its values
are not null and suit a type. -/
structure Counted (type : AttributeType) (m : List (Value × Nat)) : Prop where
  sorted : OrderedMap.Sorted m
  positive : ∀ p ∈ m, 0 < p.2
  suits : ∀ p ∈ m, p.1.isNull = false ∧ p.1.Suits type

theorem counted_nil (type : AttributeType) : Counted type [] := ⟨.nil, nofun, nofun⟩

theorem Counted.tail {p : Value × Nat} (h : Counted type (p :: m)) : Counted type m where
  sorted := h.sorted.tail
  positive q hq := h.positive q (List.mem_cons_of_mem p hq)
  suits q hq := h.suits q (List.mem_cons_of_mem p hq)

theorem Counted.mem_copies (h : Counted type m) : v ∈ copies m ↔ ∃ p ∈ m, p.1 = v := by
  induction m with
  | nil => simp
  | cons p rest ih =>
      have hp : p.2 ≠ 0 := Nat.ne_of_gt (h.positive p List.mem_cons_self)
      rw [copies_cons, Multiset.mem_add, Multiset.mem_replicate, and_iff_right hp, ih h.tail]
      simp [eq_comm]

theorem Counted.addValue (h : Counted type m) (hnull : v.isNull = false) (hv : v.Suits type) :
    Counted type (addValue v m) := by
  have hmem := OrderedMap.mem_update h.sorted v (fun n => n.getD 0 + 1)
  rw [addValue_eq_update]
  refine ⟨h.sorted.update _ _, fun p hp => ?_, fun p hp => ?_⟩
  · rcases (hmem p).1 hp with ⟨hp, -⟩ | ⟨q, -, -, rfl⟩ | ⟨-, rfl⟩
    · exact h.positive p hp
    · exact Nat.succ_pos _
    · exact Nat.succ_pos _
  · rcases (hmem p).1 hp with ⟨hp, -⟩ | ⟨q, hq, -, rfl⟩ | ⟨-, rfl⟩
    · exact h.suits p hp
    · exact h.suits q hq
    · exact ⟨hnull, hv⟩

/-- Adding a value is adding one copy of it. -/
theorem Counted.copies_addValue (h : Counted type m) (htype : type = .int ∨ type = .long)
    (hv : v.Suits type) : copies (Accumulator.addValue v m) = v ::ₘ copies m := by
  induction m with
  | nil => rfl
  | cons p rest ih =>
      obtain ⟨w, n⟩ := p
      unfold Accumulator.addValue
      cases horder : v.order w with
      | lt => rfl
      | eq =>
          obtain rfl : v = w := hv.eq_of_same htype (h.suits _ List.mem_cons_self).2
            (Value.same_iff.2 horder)
          simp only [copies_cons, Multiset.replicate_succ, Multiset.cons_add]
      | gt => simp only [copies_cons, ih h.tail, Multiset.add_cons]

theorem Counted.removeValue (h : Counted type m) : Counted type (removeValue v m) := by
  induction m with
  | nil => exact h
  | cons p rest ih =>
      obtain ⟨w, n⟩ := p
      obtain ⟨hsorted, hpositive, hsuits⟩ := h
      obtain ⟨hhead, hrest⟩ := List.pairwise_cons.1 hsorted
      obtain ⟨hn, hpositive⟩ := List.forall_mem_cons.1 hpositive
      obtain ⟨hw, hsuits⟩ := List.forall_mem_cons.1 hsuits
      unfold Accumulator.removeValue
      split
      · split
        · exact ⟨hrest, hpositive, hsuits⟩
        · refine ⟨List.pairwise_cons.2 ⟨hhead, hrest⟩, ?_, List.forall_mem_cons.2 ⟨hw, hsuits⟩⟩
          refine List.forall_mem_cons.2 ⟨?_, hpositive⟩
          dsimp only
          omega
      · obtain ⟨hsorted', hpositive', hsuits'⟩ := ih ⟨hrest, hpositive, hsuits⟩
        refine ⟨List.pairwise_cons.2 ⟨fun q hq => ?_, hsorted'⟩,
          List.forall_mem_cons.2 ⟨hn, hpositive'⟩, List.forall_mem_cons.2 ⟨hw, hsuits'⟩⟩
        obtain ⟨r, hr, hkey⟩ := mem_removeValue hq
        exact hkey ▸ hhead r hr

/-- Taking a value away is taking one copy of it away. -/
theorem Counted.copies_removeValue (h : Counted type m) (htype : type = .int ∨ type = .long)
    (hv : v.Suits type) : copies (Accumulator.removeValue v m) = (copies m).erase v := by
  induction m with
  | nil => rfl
  | cons p rest ih =>
      obtain ⟨w, n⟩ := p
      have hn : 0 < n := h.positive _ List.mem_cons_self
      unfold Accumulator.removeValue
      cases hsame : v.same w with
      | true =>
          obtain rfl : v = w := hv.eq_of_same htype (h.suits _ List.mem_cons_self).2 hsame
          obtain ⟨k, rfl⟩ := Nat.exists_eq_succ_of_ne_zero (Nat.ne_of_gt hn)
          cases k with
          | zero => simp
          | succ k => simp [Multiset.replicate_succ]
      | false =>
          have hne : v ∉ Multiset.replicate n w := by
            intro hmem
            obtain rfl := Multiset.eq_of_mem_replicate hmem
            simp at hsame
          simp only [Bool.false_eq_true, if_false, copies_cons, ih h.tail]
          rw [Multiset.erase_add_right_neg _ hne]

/-- The values of a counted list are live. -/
theorem Counted.live (h : Counted type m) : Live (copies m).toList m where
  sorted := h.sorted
  folded p hp := ⟨Multiset.mem_toList.2 (h.mem_copies.2 ⟨p, hp, rfl⟩), (h.suits p hp).1⟩
  kept v hv _ := by
    obtain ⟨p, hp, rfl⟩ := h.mem_copies.1 (Multiset.mem_toList.1 hv)
    exact ⟨p, hp, Value.same_self p.1⟩

end Accumulator

/-! ### Changes -/

/-- What an event does to an aggregate: a value is added or taken away. -/
structure Change where
  value : Value
  isAdded : Bool

namespace Change

variable {changes changes' before : List Change} {c : Change} {added : Bool}

/-- The values that are not null of the changes that add, or of those that take away. -/
def values (added : Bool) (changes : List Change) : List Value :=
  (changes.filter fun c => c.isAdded == added && !c.value.isNull).map (·.value)

/-- The sum of the integers that are added, less that of the integers that are taken away. -/
def total (changes : List Change) : Int :=
  ((values true changes).map Value.longPart).sum - ((values false changes).map Value.longPart).sum

/-- The values that have been added and not yet been taken away. -/
def live (changes : List Change) : Multiset Value :=
  (values true changes : Multiset Value) - (values false changes : Multiset Value)

/-- Every value that is taken away has a live copy at that time. -/
def Balanced (changes : List Change) : Prop :=
  ∀ before c after, changes = before ++ c :: after → c.isAdded = false →
    c.value.isNull = false → c.value ∈ live before

instance (changes : List Change) : Decidable (Balanced changes) :=
  decidable_of_iff (∀ n, (h : n < changes.length) → changes[n].isAdded = false →
      changes[n].value.isNull = false → changes[n].value ∈ live (changes.take n)) <| by
    constructor
    · rintro h before c after rfl hadded hnull
      simpa [hadded, hnull] using h before.length (by simp)
    · intro h n hn
      refine h (changes.take n) changes[n] (changes.drop (n + 1)) ?_
      rw [← List.drop_eq_getElem_cons hn, List.take_append_drop]

theorem values_snoc_own (hadded : c.isAdded = added) (hnull : c.value.isNull = false) :
    values added (before ++ [c]) = values added before ++ [c.value] := by
  simp [values, List.filter_append, hadded, hnull]

theorem values_snoc_other (hadded : c.isAdded ≠ added) :
    values added (before ++ [c]) = values added before := by
  simp [values, List.filter_append, hadded]

theorem values_snoc_null (hnull : c.value.isNull = true) :
    values added (before ++ [c]) = values added before := by
  simp [values, List.filter_append, hnull]

theorem values_perm (h : changes.Perm changes') :
    (values added changes).Perm (values added changes') := (h.filter _).map _

theorem total_perm (h : changes.Perm changes') : total changes = total changes' := by
  rw [total, total, ((values_perm h).map _).sum_eq, ((values_perm h).map _).sum_eq]

theorem live_perm (h : changes.Perm changes') : live changes = live changes' := by
  rw [live, live, Multiset.coe_eq_coe.2 (values_perm h), Multiset.coe_eq_coe.2 (values_perm h)]

theorem total_snoc :
    total (before ++ [c]) =
      total before + if c.isAdded then c.value.longPart else -c.value.longPart := by
  unfold total
  cases hnull : c.value.isNull with
  | true =>
      have hzero : c.value.longPart = 0 := by
        rw [Value.isNull_iff_eq_null.1 hnull]
        rfl
      rw [values_snoc_null hnull, values_snoc_null hnull, hzero, neg_zero, ite_self, add_zero]
  | false =>
      cases hadded : c.isAdded with
      | true =>
          rw [values_snoc_own hadded hnull, values_snoc_other (by simp [hadded]), if_pos rfl,
            List.map_append, List.sum_append, List.map_singleton, List.sum_singleton]
          omega
      | false =>
          rw [values_snoc_own hadded hnull, values_snoc_other (by simp [hadded]),
            if_neg Bool.false_ne_true, List.map_append, List.sum_append, List.map_singleton,
            List.sum_singleton]
          omega

theorem balanced_snoc :
    Balanced (before ++ [c]) ↔
      Balanced before ∧ (c.isAdded = false → c.value.isNull = false → c.value ∈ live before) := by
  constructor
  · intro h
    refine ⟨fun earlier d after hsplit => ?_, h before c [] rfl⟩
    subst hsplit
    exact h earlier d (after ++ [c]) (by simp)
  · rintro ⟨hbefore, hlast⟩ earlier d after hsplit
    rcases after.eq_nil_or_concat' with rfl | ⟨after, e, rfl⟩
    · obtain ⟨rfl, hlast'⟩ := List.append_inj' hsplit rfl
      cases hlast'
      exact hlast
    · rw [← List.cons_append, ← List.append_assoc] at hsplit
      obtain ⟨rfl, -⟩ := List.append_inj' hsplit rfl
      exact hbefore earlier d after rfl

/-- What is live is the value of a change. -/
theorem exists_of_mem_live {v : Value} (h : v ∈ live changes) : ∃ c ∈ changes, c.value = v := by
  have hmem : v ∈ values true changes := Multiset.mem_of_le (Multiset.sub_le_self _ _) h
  obtain ⟨c, hc, rfl⟩ := List.mem_map.1 hmem
  exact ⟨c, List.mem_of_mem_filter hc, rfl⟩

/-- Balanced changes take away no more than they add. -/
theorem Balanced.le (h : Balanced changes) :
    (values false changes : Multiset Value) ≤ (values true changes : Multiset Value) := by
  induction changes using List.reverseRecOn with
  | nil => exact le_rfl
  | append_singleton before c ih =>
      obtain ⟨hbefore, hlast⟩ := balanced_snoc.1 h
      have hle := ih hbefore
      cases hnull : c.value.isNull with
      | true => rwa [values_snoc_null hnull, values_snoc_null hnull]
      | false =>
          cases hadded : c.isAdded with
          | true =>
              rw [values_snoc_own hadded hnull, values_snoc_other (by simp [hadded]),
                ← Multiset.coe_add]
              exact hle.trans (Multiset.le_add_right _ _)
          | false =>
              have hmem : c.value ∈ live before := hlast hadded hnull
              rw [values_snoc_own hadded hnull, values_snoc_other (by simp [hadded]),
                ← Multiset.coe_add]
              exact add_le_of_le_tsub_left_of_le hle (Multiset.singleton_le.2 hmem)

/-- A value that is added is one live copy more. -/
theorem live_snoc_added (h : Balanced before) (hadded : c.isAdded = true)
    (hnull : c.value.isNull = false) : live (before ++ [c]) = c.value ::ₘ live before := by
  rw [live, values_snoc_own hadded hnull, values_snoc_other (by simp [hadded]),
    ← Multiset.coe_add, ← tsub_add_eq_add_tsub h.le, add_comm]
  rfl

/-- A value that is taken away is one live copy less. -/
theorem live_snoc_removed (hadded : c.isAdded = false) (hnull : c.value.isNull = false) :
    live (before ++ [c]) = (live before).erase c.value := by
  rw [live, values_snoc_own hadded hnull, values_snoc_other (by simp [hadded]),
    ← Multiset.coe_add, ← tsub_tsub, Multiset.coe_singleton, Multiset.sub_singleton]
  rfl

/-- Null is not live. -/
theorem live_snoc_null (hnull : c.value.isNull = true) : live (before ++ [c]) = live before := by
  rw [live, values_snoc_null hnull, values_snoc_null hnull]
  rfl

end Change

namespace Accumulator

open Change

variable {kind : FoldKind} {type : AttributeType} {changes : List Change} {a : Accumulator}

/-- The state after changes. -/
def ofChanges (kind : FoldKind) (changes : List Change) : Except EvalError Accumulator :=
  changes.foldlM (fun a c => a.fold kind c.value c.isAdded) .empty

theorem ofChanges_snoc (kind : FoldKind) (before : List Change) (c : Change) :
    ofChanges kind (before ++ [c]) =
      (ofChanges kind before >>= fun a => a.fold kind c.value c.isAdded) := by
  simp [ofChanges, List.foldlM_append]

theorem sumLong_ofChanges (h : ofChanges .sum changes = .ok a) :
    a.sumLong = Int64.ofInt (total changes) := by
  induction changes using List.reverseRecOn generalizing a with
  | nil =>
      cases h
      rfl
  | append_singleton before c ih =>
      rw [ofChanges_snoc] at h
      obtain ⟨b, hb, h⟩ := Run.bind_eq_ok.1 h
      rw [fold_sum_eq_ok h, ih hb, total_snoc, Int64.ofInt_add]

/-- The counted values of an extremum are the live values. -/
theorem copies_ofChanges (hkind : kind = .min ∨ kind = .max) (htype : type = .int ∨ type = .long)
    (hsuits : ∀ c ∈ changes, c.value.Suits type) (hbalanced : Balanced changes)
    (h : ofChanges kind changes = .ok a) :
    Counted type a.values ∧ copies a.values = live changes := by
  induction changes using List.reverseRecOn generalizing a with
  | nil =>
      cases h
      exact ⟨counted_nil type, rfl⟩
  | append_singleton before c ih =>
      rw [ofChanges_snoc] at h
      obtain ⟨b, hb, h⟩ := Run.bind_eq_ok.1 h
      obtain ⟨hbefore, -⟩ := balanced_snoc.1 hbalanced
      obtain ⟨hcounted, hlive⟩ := ih (fun d hd => hsuits d (List.mem_append_left _ hd)) hbefore hb
      have hc : c.value.Suits type := hsuits c (by simp)
      have hvalues := fold_extremum_eq_ok hkind h
      -- The change does to the counted values what it does to the live ones.
      cases hnull : c.value.isNull with
      | true =>
          rw [hnull, if_pos rfl] at hvalues
          rw [hvalues, live_snoc_null hnull]
          exact ⟨hcounted, hlive⟩
      | false =>
          rw [hnull, if_neg Bool.false_ne_true] at hvalues
          cases hadded : c.isAdded with
          | true =>
              rw [hadded, if_pos rfl] at hvalues
              rw [hvalues, live_snoc_added hbefore hadded hnull, ← hlive]
              exact ⟨hcounted.addValue hnull hc, hcounted.copies_addValue htype hc⟩
          | false =>
              rw [hadded, if_neg Bool.false_ne_true] at hvalues
              rw [hvalues, live_snoc_removed hadded hnull, ← hlive]
              exact ⟨hcounted.removeValue, hcounted.copies_removeValue htype hc⟩

/-- A minimum is a least one of the live values. -/
theorem extremum_min (htype : type = .int ∨ type = .long)
    (hsuits : ∀ c ∈ changes, c.value.Suits type) (hbalanced : Balanced changes)
    (h : ofChanges .min changes = .ok a) :
    Extremum (fun v w => (v.order w).isLE = true) (live changes) (a.result .min type) := by
  obtain ⟨hcounted, hlive⟩ := copies_ofChanges (.inl rfl) htype hsuits hbalanced h
  have hfirst := hcounted.live.extremum_head
  rwa [Multiset.coe_toList, hlive] at hfirst

/-- A maximum is a greatest one. -/
theorem extremum_max (htype : type = .int ∨ type = .long)
    (hsuits : ∀ c ∈ changes, c.value.Suits type) (hbalanced : Balanced changes)
    (h : ofChanges .max changes = .ok a) :
    Extremum (fun v w => (w.order v).isLE = true) (live changes) (a.result .max type) := by
  obtain ⟨hcounted, hlive⟩ := copies_ofChanges (.inr rfl) htype hsuits hbalanced h
  have hlast := hcounted.live.extremum_last
  rwa [Multiset.coe_toList, hlive] at hlast

end Accumulator

end EventQuery
