import EventQuery.Proofs.Eval.Aggregate
import Mathlib.Algebra.BigOperators.Group.Multiset.Basic

/-!
Partial aggregates of partial aggregates. A value stands for a collection of values under a fold if
it is what the fold would make of them: their sum modulo 2^64, or a least or greatest of them. What
a fold makes of values that stand for parts of a collection stands for the whole, so it does not
matter in how many steps a collection is folded.
-/

namespace EventQuery

/-- A collection falls into parts, one for each element of a list. -/
inductive Parts {α β : Type} (R : α → Multiset β → Prop) : List α → Multiset β → Prop
  | nil : Parts R [] 0
  | cons {a : α} {as : List α} {s t : Multiset β} (head : R a s) (tail : Parts R as t) :
      Parts R (a :: as) (s + t)

namespace Parts

variable {α β γ : Type} {R R' : α → Multiset β → Prop} {a : α} {as bs : List α} {s t u : Multiset β}

theorem singleton (h : R a s) : Parts R [a] s := by
  rw [← add_zero s]
  exact .cons h .nil

theorem append (h : Parts R as s) (h' : Parts R bs t) : Parts R (as ++ bs) (s + t) := by
  induction h with
  | nil => rwa [List.nil_append, zero_add]
  | cons head _ ih =>
      rw [List.cons_append, add_assoc]
      exact .cons head ih

theorem split (h : Parts R (as ++ bs) u) : ∃ s t, Parts R as s ∧ Parts R bs t ∧ u = s + t := by
  induction as generalizing u with
  | nil => exact ⟨0, u, .nil, h, (zero_add u).symm⟩
  | cons a as ih =>
      cases h with
      | cons head tail =>
          obtain ⟨s, t, hs, ht, rfl⟩ := ih tail
          exact ⟨_, t, .cons head hs, ht, (add_assoc _ _ _).symm⟩

theorem imp (h : Parts R as s) (himp : ∀ a ∈ as, ∀ t, R a t → R' a t) : Parts R' as s := by
  induction h with
  | nil => exact .nil
  | cons head _ ih =>
      exact .cons (himp _ List.mem_cons_self _ head) (ih fun a ha =>
        himp a (List.mem_cons_of_mem _ ha))

theorem map {R : γ → Multiset β → Prop} (f : α → γ) (h : Parts (fun a => R (f a)) as s) :
    Parts R (as.map f) s := by
  induction h with
  | nil => exact .nil
  | cons head _ ih => exact .cons head ih

theorem of_map {R : γ → Multiset β → Prop} {f : α → γ} (h : Parts R (as.map f) s) :
    Parts (fun a => R (f a)) as s := by
  induction as generalizing s with
  | nil =>
      cases h
      exact .nil
  | cons a as ih =>
      cases h with
      | cons head tail => exact .cons head (ih tail)

theorem flatMap {R : γ → Multiset β → Prop} {f : α → List γ}
    (h : Parts (fun a => Parts R (f a)) as s) :
    Parts R (as.flatMap f) s := by
  induction h with
  | nil => exact .nil
  | cons head _ ih =>
      rw [List.flatMap_cons]
      exact head.append ih

/-- A test of the elements that agrees with a test of the parts picks a collection of its own. -/
theorem filter (p : α → Bool) (q : β → Prop) [DecidablePred q]
    (hpq : ∀ a t, R a t → ∀ x ∈ t, q x ↔ p a = true) (h : Parts R as s) :
    Parts R (as.filter p) (s.filter q) := by
  induction h with
  | nil => exact .nil
  | @cons a as s t head tail ih =>
      rw [Multiset.filter_add]
      cases hp : p a with
      | true =>
          rw [List.filter_cons_of_pos hp, Multiset.filter_eq_self.2 fun x hx =>
            (hpq a s head x hx).2 hp]
          exact .cons head ih
      | false =>
          have hnone : s.filter q = 0 := by
            refine Multiset.filter_eq_nil.2 fun x hx hqx => ?_
            rw [(hpq a s head x hx).1 hqx] at hp
            cases hp
          rw [List.filter_cons_of_neg (by simp [hp]), hnone, zero_add]
          exact ih

/-- No part is larger than the whole. -/
theorem bounded (h : Parts R as s) : Parts (fun a t => R a t ∧ t ≤ s) as s := by
  induction h with
  | nil => exact .nil
  | @cons a as s t head tail ih =>
      refine .cons ⟨head, Multiset.le_add_right s t⟩ (ih.imp fun _ _ u hu => ⟨hu.1, ?_⟩)
      exact hu.2.trans (Multiset.le_add_left t s)

/-- Every part has its element in the list. -/
theorem exists_part (h : Parts R as s) {x : β} (hx : x ∈ s) : ∃ a ∈ as, ∃ t ≤ s, R a t ∧ x ∈ t := by
  induction h with
  | nil => simp at hx
  | @cons a as s t head _ ih =>
      rcases Multiset.mem_add.1 hx with hx | hx
      · exact ⟨a, List.mem_cons_self, s, Multiset.le_add_right s t, head, hx⟩
      · obtain ⟨b, hb, u, hu, hR, hxu⟩ := ih hx
        exact ⟨b, List.mem_cons_of_mem _ hb, u, hu.trans (Multiset.le_add_left t s), hR, hxu⟩

/-- Every element of the list has its part. -/
theorem exists_of_mem (h : Parts R as s) (ha : a ∈ as) : ∃ t ≤ s, R a t := by
  induction h with
  | nil => cases ha
  | @cons b as s t head _ ih =>
      rcases List.mem_cons.1 ha with rfl | ha
      · exact ⟨s, Multiset.le_add_right s t, head⟩
      · obtain ⟨u, hu, hR⟩ := ih ha
        exact ⟨u, hu.trans (Multiset.le_add_left t s), hR⟩

/-- Where the parts are told apart by labels, each has all elements of its label. -/
theorem part_eq_filter [DecidableEq γ] {label : α → γ} {labelOf : β → Option γ}
    (hlabel : ∀ a t, R a t → ∀ x ∈ t, labelOf x = some (label a)) (hnodup : (as.map label).Nodup)
    (h : Parts R as s) (ha : a ∈ as) : R a (s.filter fun x => labelOf x = some (label a)) := by
  induction h with
  | nil => cases ha
  | @cons b bs t u head tail ih =>
      rw [List.map_cons, List.nodup_cons] at hnodup
      rw [Multiset.filter_add]
      -- The parts of other labels contribute nothing to the selection.
      rcases List.mem_cons.1 ha with rfl | ha
      · have hrest : u.filter (fun x => labelOf x = some (label a)) = 0 := by
          refine Multiset.filter_eq_nil.2 fun x hx heq => hnodup.1 ?_
          obtain ⟨c, hc, v, -, hR, hxv⟩ := tail.exists_part hx
          rw [hlabel c v hR x hxv, Option.some.injEq] at heq
          exact heq ▸ List.mem_map_of_mem hc
        rw [Multiset.filter_eq_self.2 (hlabel a t head), hrest, add_zero]
        exact head
      · have hother : t.filter (fun x => labelOf x = some (label a)) = 0 := by
          refine Multiset.filter_eq_nil.2 fun x hx heq => hnodup.1 ?_
          rw [hlabel b t head x hx, Option.some.injEq] at heq
          exact heq ▸ List.mem_map_of_mem ha
        rw [hother, zero_add]
        exact ih hnodup.2 ha

/-- The image of a collection falls into the images of its parts. -/
theorem map_parts (f : β → γ) (h : Parts R as s) :
    Parts (fun a u => ∃ t, R a t ∧ u = t.map f) as (s.map f) := by
  induction h with
  | nil => exact .nil
  | cons head _ ih =>
      rw [Multiset.map_add]
      exact .cons ⟨_, head, rfl⟩ ih

/-- A measure of the elements that is the sum over their parts adds up to the sum over the
collection. -/
theorem sum_eq {M : Type} [AddCommMonoid M] {μ : α → M} {f : β → M}
    (hμ : ∀ a t, R a t → μ a = (t.map f).sum) (h : Parts R as s) :
    (as.map μ).sum = (s.map f).sum := by
  induction h with
  | nil => rfl
  | cons head _ ih =>
      rw [List.map_cons, List.sum_cons, ih, hμ _ _ head, Multiset.map_add, Multiset.sum_add]

end Parts

/-- A value is first among others in an order: it is one of them unless all are null, and none of
them that is not null comes before it. -/
structure Extremum (before : Value → Value → Prop) (vs : Multiset Value) (v : Value) : Prop where
  first : ∀ w ∈ vs, w.isNull = false → v.isNull = false ∧ before v w
  mem : v.isNull = false → v ∈ vs

theorem Extremum.of_parts {before : Value → Value → Prop}
    (htrans : ∀ u v w, before u v → before v w → before u w) {vs : List Value} {s : Multiset Value}
    {v : Value} (hparts : Parts (fun w t => Extremum before t w) vs s) (h : Extremum before vs v) :
    Extremum before s v where
  first w hw hnull := by
    obtain ⟨u, hu, t, -, hut, hwt⟩ := hparts.exists_part hw
    obtain ⟨hunull, huw⟩ := hut.first w hwt hnull
    obtain ⟨hvnull, hvu⟩ := h.first u (Multiset.mem_coe.2 hu) hunull
    exact ⟨hvnull, htrans _ _ _ hvu huw⟩
  mem hnull := by
    obtain ⟨t, ht, hv⟩ := hparts.exists_of_mem (Multiset.mem_coe.1 (h.mem hnull))
    exact Multiset.mem_of_le ht (hv.mem hnull)

/-- The first live value is a least one of the values that have been folded. -/
theorem Accumulator.Live.extremum_head {vs : List Value} {m : List (Value × Nat)} (h : Live vs m) :
    Extremum (fun v w => (v.order w).isLE = true) vs ((m.head?.map (·.1)).getD .null) := by
  refine ⟨fun w hw hnull => ?_, fun hnull => ?_⟩
  · obtain ⟨q, hq, hsame⟩ := h.kept w (Multiset.mem_coe.1 hw) hnull
    cases m with
    | nil => cases hq
    | cons p rest =>
        refine ⟨(h.folded p List.mem_cons_self).2, ?_⟩
        rw [List.head?_cons, Option.map_some, Option.getD_some, Value.order_congr_right hsame]
        rcases List.mem_cons.1 hq with rfl | hq
        · simp
        · simp [h.sorted.head_lt hq]
  · cases m with
    | nil => cases hnull
    | cons p rest => exact Multiset.mem_coe.2 (h.folded p List.mem_cons_self).1

/-- The last live value is a greatest one. -/
theorem Accumulator.Live.extremum_last {vs : List Value} {m : List (Value × Nat)} (h : Live vs m) :
    Extremum (fun v w => (w.order v).isLE = true) vs ((m.getLast?.map (·.1)).getD .null) := by
  refine ⟨fun w hw hnull => ?_, fun hnull => ?_⟩
  · obtain ⟨q, hq, hsame⟩ := h.kept w (Multiset.mem_coe.1 hw) hnull
    rcases m.eq_nil_or_concat' with rfl | ⟨rest, p, rfl⟩
    · cases hq
    · have hp : p ∈ rest ++ [p] := by simp
      rw [List.getLast?_concat, Option.map_some, Option.getD_some, Value.order_congr_left hsame]
      refine ⟨(h.folded p hp).2, ?_⟩
      rcases List.mem_append.1 hq with hq | hq
      · have hlt := (List.pairwise_append.1 h.sorted).2.2 q hq p (by simp)
        simp [hlt]
      · simp [List.mem_singleton.1 hq]
  · rcases m.eq_nil_or_concat' with rfl | ⟨rest, p, rfl⟩
    · cases hnull
    · rw [List.getLast?_concat, Option.map_some, Option.getD_some]
      exact Multiset.mem_coe.2 (h.folded p (by simp)).1

namespace FoldKind

/-- A value is what a fold makes of others. Sums are of integers; nothing is said about other sums
and averages. -/
def StandsFor (kind : FoldKind) (type : AttributeType) (vs : Multiset Value) (v : Value) : Prop :=
  match kind with
  | .sum => type = .long → Int64.ofInt v.longPart = Int64.ofInt (vs.map Value.longPart).sum
  | .avg => True
  | .min => Extremum (fun v w => (v.order w).isLE = true) vs v
  | .max => Extremum (fun v w => (w.order v).isLE = true) vs v

variable {kind : FoldKind} {type : AttributeType} {vs : List Value} {s : Multiset Value} {v : Value}
  {a : Accumulator}

theorem standsFor_singleton (kind : FoldKind) (type : AttributeType) (v : Value) :
    kind.StandsFor type {v} v := by
  have hextremum {before : Value → Value → Prop} (hrefl : before v v) : Extremum before {v} v :=
    ⟨fun w hw hnull => by rw [Multiset.mem_singleton.1 hw] at hnull ⊢; exact ⟨hnull, hrefl⟩,
      fun _ => by simp⟩
  cases kind with
  | sum => simp [StandsFor]
  | avg => trivial
  | min => exact hextremum (by simp)
  | max => exact hextremum (by simp)

theorem StandsFor.of_parts (hparts : Parts (fun w t => kind.StandsFor type t w) vs s)
    (h : kind.StandsFor type vs v) : kind.StandsFor type s v := by
  cases kind with
  | sum =>
      intro htype
      rw [h htype]
      clear h
      induction hparts with
      | nil => rfl
      | cons head _ ih =>
          rw [← Multiset.cons_coe, Multiset.map_cons, Multiset.sum_cons, Multiset.map_add,
            Multiset.sum_add, Int64.ofInt_add, Int64.ofInt_add, ih, head htype]
  | avg => trivial
  | min => exact Extremum.of_parts (fun _ _ _ => Std.TransCmp.isLE_trans) hparts h
  | max =>
      have htrans (u v w : Value) (huv : (v.order u).isLE = true) (hvw : (w.order v).isLE = true) :
          (w.order u).isLE = true := Std.TransCmp.isLE_trans hvw huv
      exact Extremum.of_parts htrans hparts h

/-- The first live value is a least value, and the last one a greatest. -/
theorem standsFor_result (h : Accumulator.ofValues kind vs = .ok a) (type : AttributeType) :
    kind.StandsFor type vs (a.result kind type) := by
  cases kind with
  | sum =>
      rintro rfl
      rw [Multiset.map_coe, Multiset.sum_coe, ← Accumulator.sumLong_ofValues h]
      exact Int64.ofInt_toInt a.sumLong
  | avg => trivial
  | min => exact (Accumulator.live_ofValues (.inl rfl) h).extremum_head
  | max => exact (Accumulator.live_ofValues (.inr rfl) h).extremum_last

end FoldKind

end EventQuery
