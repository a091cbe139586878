import EventQuery.Proofs.Eval.Run
import EventQuery.Proofs.Store.OrderedMap
import Mathlib.Algebra.Ring.Int.Defs
import Mathlib.Data.List.Induction

/-!
What accumulators hold after values have been folded into them: sums are kept modulo 2^64, and the
live values of an extremum in ascending order, so that the first is a least and the last a greatest
of the values that are not null.
-/

namespace EventQuery

/-- The content of an integer, and zero for every other value. -/
def Value.longPart (v : Value) : Int := (v.asLong.map Int64.toInt).getD 0

/-- The content of an integer is within the range of integers. -/
theorem Value.toInt_ofInt_longPart (v : Value) : (Int64.ofInt v.longPart).toInt = v.longPart := by
  unfold longPart
  cases v.asLong with
  | none => rfl
  | some l => simp

namespace Accumulator

variable {kind : FoldKind} {vs : List Value} {v : Value} {a b : Accumulator} {added : Bool}

/-- The state after folding values. -/
def ofValues (kind : FoldKind) (vs : List Value) : Except EvalError Accumulator :=
  vs.foldlM (fun a v => a.fold kind v true) .empty

theorem ofValues_snoc (kind : FoldKind) (vs : List Value) (v : Value) :
    ofValues kind (vs ++ [v]) = (ofValues kind vs >>= fun a => a.fold kind v true) := by
  simp [ofValues, List.foldlM_append]

/-- A value is added to the sum of integers or taken away from it; only integers count. -/
theorem fold_sum_eq_ok (h : a.fold .sum v added = .ok b) :
    b.sumLong = a.sumLong + Int64.ofInt (if added then v.longPart else -v.longPart) := by
  unfold fold at h
  split at h
  · rename_i hnull
    cases h
    cases v <;> simp_all [Value.isNull, Value.longPart, Value.asLong]
  · obtain ⟨a', hstep, h⟩ := Run.bind_eq_ok.1 h
    obtain rfl := step_count hstep
    cases hlong : v.asLong with
    | none =>
        simp only [addToSums, hlong] at h
        cases h
        simp [Value.longPart, hlong]
    | some l =>
        cases added with
        | true =>
            simp only [addToSums, hlong, if_pos] at h
            cases h
            simp [Value.longPart, hlong]
        | false =>
            by_cases hleast : l = Int64.minValue
            · simp only [addToSums, hlong, hleast, if_pos, Bool.false_eq_true, if_false] at h
              cases h
            · simp only [addToSums, hlong, hleast, Bool.false_eq_true, if_false] at h
              cases h
              simp [Value.longPart, hlong, Int64.ofInt_neg, Int64.sub_eq_add_neg]

/-- A value that is not null is added to the live values or taken away from them. -/
theorem fold_extremum_eq_ok (hkind : kind = .min ∨ kind = .max) (h : a.fold kind v added = .ok b) :
    b.values = if v.isNull then a.values
      else if added then addValue v a.values else removeValue v a.values := by
  unfold fold at h
  split at h
  · cases h
    rw [if_pos ‹_›]
  · obtain ⟨a', hstep, h⟩ := Run.bind_eq_ok.1 h
    obtain rfl := step_count hstep
    rw [if_neg ‹_›]
    rcases hkind with rfl | rfl <;> cases h <;> rfl

theorem sumLong_ofValues (h : ofValues .sum vs = .ok a) :
    a.sumLong = Int64.ofInt (vs.map Value.longPart).sum := by
  induction vs using List.reverseRecOn generalizing a with
  | nil =>
      cases h
      rfl
  | append_singleton vs v ih =>
      rw [ofValues_snoc] at h
      obtain ⟨a', ha', h⟩ := Run.bind_eq_ok.1 h
      rw [fold_sum_eq_ok h, ih ha']
      simp

/-! ### Live values -/

theorem addValue_eq_update (v : Value) (m : List (Value × Nat)) :
    addValue v m = OrderedMap.update v (fun n => n.getD 0 + 1) m := by
  induction m with
  | nil => rfl
  | cons p rest ih =>
      obtain ⟨w, n⟩ := p
      simp only [addValue, OrderedMap.update, ih]
      cases v.order w <;> rfl

/-- The live values of an extremum are values that have been folded, and each of those is among them
up to equality. -/
structure Live (vs : List Value) (m : List (Value × Nat)) : Prop where
  sorted : OrderedMap.Sorted m
  folded : ∀ p ∈ m, p.1 ∈ vs ∧ p.1.isNull = false
  kept : ∀ v ∈ vs, v.isNull = false → ∃ p ∈ m, v.same p.1 = true

theorem Live.add {m : List (Value × Nat)} (h : Live vs m) (hv : v.isNull = false) :
    Live (vs ++ [v]) (addValue v m) := by
  have hmem := OrderedMap.mem_update h.sorted v (fun n => n.getD 0 + 1)
  rw [addValue_eq_update]
  refine ⟨h.sorted.update _ _, fun p hp => ?_, fun w hw hnull => ?_⟩
  · rw [List.mem_append, List.mem_singleton]
    rcases (hmem p).1 hp with ⟨hp, -⟩ | ⟨q, hq, -, rfl⟩ | ⟨-, rfl⟩
    · exact ⟨.inl (h.folded p hp).1, (h.folded p hp).2⟩
    · exact ⟨.inl (h.folded q hq).1, (h.folded q hq).2⟩
    · exact ⟨.inr rfl, hv⟩
  · -- A value that was there keeps its place, and the new one finds an equal value or a place
    -- of its own.
    have hnew : ∃ p ∈ OrderedMap.update v (fun n => n.getD 0 + 1) m, v.same p.1 = true := by
      by_cases hsame : ∃ q ∈ m, v.same q.1 = true
      · obtain ⟨q, hq, hsame⟩ := hsame
        exact ⟨_, (hmem _).2 (.inr (.inl ⟨q, hq, hsame, rfl⟩)), hsame⟩
      · have hnone : ∀ q ∈ m, v.same q.1 = false := by simpa using hsame
        exact ⟨_, (hmem _).2 (.inr (.inr ⟨hnone, rfl⟩)), Value.same_self v⟩
    rcases List.mem_append.1 hw with hw | hw
    · obtain ⟨p, hp, hwp⟩ := h.kept w hw hnull
      cases hvp : v.same p.1 with
      | false => exact ⟨p, (hmem p).2 (.inl ⟨hp, hvp⟩), hwp⟩
      | true => exact ⟨_, (hmem _).2 (.inr (.inl ⟨p, hp, hvp, rfl⟩)), hwp⟩
    · obtain rfl := List.mem_singleton.1 hw
      exact hnew

theorem Live.skip {m : List (Value × Nat)} (h : Live vs m) (hv : v.isNull = true) :
    Live (vs ++ [v]) m := by
  refine ⟨h.sorted, fun p hp => ⟨List.mem_append_left _ (h.folded p hp).1, (h.folded p hp).2⟩,
    fun w hw hnull => ?_⟩
  rcases List.mem_append.1 hw with hw | hw
  · exact h.kept w hw hnull
  · rw [List.mem_singleton.1 hw, hv] at hnull
    cases hnull

theorem live_ofValues (hkind : kind = .min ∨ kind = .max) (h : ofValues kind vs = .ok a) :
    Live vs a.values := by
  induction vs using List.reverseRecOn generalizing a with
  | nil =>
      cases h
      exact ⟨List.Pairwise.nil, by simp [empty], by simp⟩
  | append_singleton vs v ih =>
      rw [ofValues_snoc] at h
      obtain ⟨a', ha', h⟩ := Run.bind_eq_ok.1 h
      rw [fold_extremum_eq_ok hkind h]
      cases hnull : v.isNull with
      | true => exact (ih ha').skip hnull
      | false => exact (ih ha').add hnull

end Accumulator

end EventQuery
