import EventQuery.Proofs.Value.Order
import EventQuery.Store.OrderedMap

/-!
Maps in the order of their keys. `mem_update` says what an update does to the entries, and
`Sorted.update` that the order survives it; two entries of a sorted map never have equal keys.
-/

namespace EventQuery.OrderedMap

open Value

variable {β : Type}

/-- The keys ascend strictly. -/
def Sorted (m : OrderedMap β) : Prop := m.Pairwise fun p q => p.1.order q.1 = .lt

theorem Sorted.same_eq_false_of_lt {k : Value} {p : Value × β} (h : k.order p.1 = .lt) :
    k.same p.1 = false := by
  simp [same, h]

theorem Sorted.head_lt {p q : Value × β} {rest : OrderedMap β} (h : Sorted (p :: rest))
    (hq : q ∈ rest) : p.1.order q.1 = .lt :=
  (List.pairwise_cons.1 h).1 q hq

theorem Sorted.tail {p : Value × β} {rest : OrderedMap β} (h : Sorted (p :: rest)) : Sorted rest :=
  (List.pairwise_cons.1 h).2

/-- A sorted map has at most one entry for a key. -/
theorem Sorted.eq_of_same {m : OrderedMap β} (h : Sorted m) {p q : Value × β} (hp : p ∈ m)
    (hq : q ∈ m) (hsame : p.1.same q.1 = true) : p = q := by
  induction m with
  | nil => cases hp
  | cons head rest ih =>
      rcases List.mem_cons.1 hp with rfl | hp' <;> rcases List.mem_cons.1 hq with rfl | hq'
      · rfl
      · simp [Sorted.same_eq_false_of_lt (h.head_lt hq')] at hsame
      · rw [same_comm] at hsame
        simp [Sorted.same_eq_false_of_lt (h.head_lt hp')] at hsame
      · exact ih h.tail hp' hq'

/-- The entries after an update: the others stay, and the entry of the key is made from what was
there. -/
theorem mem_update {m : OrderedMap β} (h : Sorted m) (key : Value) (f : Option β → β)
    (p : Value × β) :
    p ∈ update key f m ↔
      (p ∈ m ∧ key.same p.1 = false) ∨
        (∃ q ∈ m, key.same q.1 = true ∧ p = (q.1, f (some q.2))) ∨
        ((∀ q ∈ m, key.same q.1 = false) ∧ p = (key, f none)) := by
  induction m with
  | nil => simp [update]
  | cons head rest ih =>
      obtain ⟨k, b⟩ := head
      simp only [update]
      cases hk : key.order k with
      | lt =>
          -- The key comes before all entries, so it equals none of theirs.
          have hfirst : key.same k = false := by simp [same, hk]
          have hrest : ∀ q ∈ rest, key.same q.1 = false := fun q hq =>
            Sorted.same_eq_false_of_lt (Std.TransCmp.lt_trans hk (h.head_lt hq))
          grind
      | eq =>
          have hfirst : key.same k = true := by simp [same, hk]
          have hrest : ∀ q ∈ rest, key.same q.1 = false := fun q hq => by
            rw [same_congr_left hfirst]
            exact Sorted.same_eq_false_of_lt (h.head_lt hq)
          constructor
          · intro hp
            rcases List.mem_cons.1 hp with rfl | hp
            · exact .inr (.inl ⟨(k, b), List.mem_cons_self, hfirst, rfl⟩)
            · exact .inl ⟨List.mem_cons_of_mem _ hp, hrest p hp⟩
          · rintro (⟨hp, hne⟩ | ⟨q, hq, hsame, rfl⟩ | ⟨hall, -⟩)
            · rcases List.mem_cons.1 hp with rfl | hp
              · simp [hfirst] at hne
              · exact List.mem_cons_of_mem _ hp
            · rcases List.mem_cons.1 hq with rfl | hq
              · exact List.mem_cons_self
              · simp [hrest q hq] at hsame
            · simp [hfirst] at hall
      | gt =>
          have hfirst : key.same k = false := by simp [same, hk]
          have := ih h.tail
          grind

theorem Sorted.update {m : OrderedMap β} (h : Sorted m) (key : Value) (f : Option β → β) :
    Sorted (OrderedMap.update key f m) := by
  induction m with
  | nil => exact List.pairwise_singleton _ _
  | cons head rest ih =>
      obtain ⟨k, b⟩ := head
      simp only [OrderedMap.update]
      cases hk : key.order k with
      | lt =>
          refine List.pairwise_cons.2 ⟨fun q hq => ?_, h⟩
          rcases List.mem_cons.1 hq with rfl | hq
          · exact hk
          · exact Std.TransCmp.lt_trans hk (h.head_lt hq)
      | eq => exact List.pairwise_cons.2 ⟨fun q hq => h.head_lt hq, h.tail⟩
      | gt =>
          refine List.pairwise_cons.2 ⟨fun q hq => ?_, ih h.tail⟩
          have hlt : k.order key = .lt := Std.OrientedCmp.lt_of_gt hk
          rcases (mem_update h.tail key f q).1 hq with ⟨hq, -⟩ | ⟨r, hr, -, rfl⟩ | ⟨-, rfl⟩
          · exact h.head_lt hq
          · have hkr := h.head_lt hr
            exact hkr
          · exact hlt

theorem Sorted.erase {m : OrderedMap β} (h : Sorted m) (key : Value) : Sorted (m.erase key) :=
  h.filter _

/-- Entries may be dropped or changed as long as they keep their keys. -/
theorem Sorted.filterMap {m : OrderedMap β} (h : Sorted m) {f : Value × β → Option (Value × β)}
    (hf : ∀ p ∈ m, ∀ q, f p = some q → q.1 = p.1) : Sorted (m.filterMap f) := by
  refine List.pairwise_filterMap.2 (h.imp_of_mem fun hp hq hlt p' hp' q' hq' => ?_)
  rw [hf _ hp _ hp', hf _ hq _ hq']
  exact hlt

theorem mem_erase {m : OrderedMap β} {key : Value} {p : Value × β} :
    p ∈ m.erase key ↔ p ∈ m ∧ key.same p.1 = false := by
  simp [erase]

theorem has_eq_false_iff {m : OrderedMap β} {key : Value} :
    m.has key = false ↔ ∀ p ∈ m, key.same p.1 = false := by
  simp [has]

theorem mem_select {m : OrderedMap β} {test : Value → Bool} {b : β} :
    b ∈ m.select test ↔ ∃ k, (k, b) ∈ m ∧ test k = true := by
  simp [select]

end EventQuery.OrderedMap
