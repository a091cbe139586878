import EventQuery.Lookup.Operator
import EventQuery.Proofs.Eval.Run

/-!
Removal by a scan. Every entry is tested once and in order, whatever the tests of the others give.
The entries that pass are dropped and the first failure is reported; no failure brings an entry
back.
-/

namespace EventQuery

open Run

/-- The verdict that an entry passes. -/
def isAcceptance {ε : Type} : Except ε Bool → Bool
  | .ok passes => passes
  | .error _ => false

theorem isAcceptance_iff {ε : Type} {v : Except ε Bool} : isAcceptance v = true ↔ v = .ok true := by
  cases v <;> simp [isAcceptance]

namespace Operator

variable {ε α β : Type} {m : Memory}

/-- The verdicts of a test on a list of entries. A failure does not end the testing. -/
def verdicts (test : α → Run ε Bool) : List α → StateM Memory (List (Except ε Bool))
  | [] => pure []
  | a :: rest => do
    let verdict ← (test a).run
    let others ← verdicts test rest
    return verdict :: others

/-- The entries that their verdicts do not accept. -/
def spared : List α → List (Except ε Bool) → List α
  | [], _ => []
  | as, [] => as
  | a :: as, v :: vs => if isAcceptance v then spared as vs else a :: spared as vs

def firstFailure : List (Except ε Bool) → Option ε
  | [] => none
  | .error e :: _ => some e
  | .ok _ :: vs => firstFailure vs

@[simp] theorem spared_nil (as : List α) : spared as ([] : List (Except ε Bool)) = as := by
  cases as <;> rfl

theorem verdicts_cons (test : α → Run ε Bool) (a : α) (rest : List α) (m : Memory) :
    verdicts test (a :: rest) m =
      ((test a m).1 :: (verdicts test rest (test a m).2).1, (verdicts test rest (test a m).2).2) :=
  rfl

theorem length_verdicts (test : α → Run ε Bool) (as : List α) (m : Memory) :
    (verdicts test as m).1.length = as.length := by
  induction as generalizing m with
  | nil => rfl
  | cons a rest ih => rw [verdicts_cons, List.length_cons, ih, List.length_cons]

/-- An entry is tested as its image is. -/
theorem verdicts_map (test : β → Run ε Bool) (g : α → β) (as : List α) :
    verdicts test (as.map g) = verdicts (fun a => test (g a)) as := by
  induction as with
  | nil => rfl
  | cons a rest ih => simp only [List.map_cons, verdicts, ih]

/-- A test that does not use the memory has its verdicts one by one. -/
theorem verdicts_ofExcept {test : α → Run ε Bool} {test' : α → Except ε Bool} {as : List α}
    (h : ∀ a ∈ as, test a = ofExcept (test' a)) (m : Memory) :
    verdicts test as m = (as.map test', m) := by
  induction as with
  | nil => rfl
  | cons a rest ih =>
      rw [verdicts_cons, h a List.mem_cons_self, run_ofExcept,
        ih fun b hb => h b (List.mem_cons_of_mem _ hb)]
      rfl

section Retain

variable {test : α → Run ε Bool} {a : α} {rest : List α} {m₁ : Memory}

theorem retain_accept (h : test a m = (.ok true, m₁)) :
    retain test (a :: rest) m = retain test rest m₁ := by
  have hrun : (test a).run m = _ := h
  simp only [retain, state_bind, hrun]
  rfl

theorem retain_reject (h : test a m = (.ok false, m₁)) :
    retain test (a :: rest) m =
      ((a :: (retain test rest m₁).1.1, (retain test rest m₁).1.2), (retain test rest m₁).2) := by
  have hrun : (test a).run m = _ := h
  simp only [retain, state_bind, hrun]
  rfl

theorem retain_error {e : ε} (h : test a m = (.error e, m₁)) :
    retain test (a :: rest) m =
      ((a :: (retain test rest m₁).1.1, some e), (retain test rest m₁).2) := by
  have hrun : (test a).run m = _ := h
  simp only [retain, state_bind, hrun]
  rfl

end Retain

/-- Retaining keeps the entries that are spared and reports the first failure. -/
theorem retain_eq (test : α → Run ε Bool) (as : List α) (m : Memory) :
    retain test as m =
      ((spared as (verdicts test as m).1, firstFailure (verdicts test as m).1),
        (verdicts test as m).2) := by
  induction as generalizing m with
  | nil => rfl
  | cons a rest ih =>
      have hrest := ih (test a m).2
      rw [verdicts_cons]
      rcases hverdict : test a m with ⟨e | _ | _, m₁⟩ <;> rw [hverdict] at hrest
      · rw [retain_error hverdict, hrest]
        rfl
      · rw [retain_reject hverdict, hrest]
        rfl
      · rw [retain_accept hverdict, hrest]
        rfl

theorem length_spared {as : List α} {vs : List (Except ε Bool)} (h : vs.length = as.length) :
    (spared as vs).length + vs.countP isAcceptance = as.length := by
  induction as generalizing vs with
  | nil =>
      obtain rfl := List.eq_nil_of_length_eq_zero h
      rfl
  | cons a as ih =>
      obtain _ | ⟨v, vs⟩ := vs
      · cases h
      have hrest := ih (Nat.succ.inj h)
      rw [spared, List.countP_cons]
      cases isAcceptance v <;> simp <;> omega

theorem spared_sublist (as : List α) (vs : List (Except ε Bool)) : (spared as vs).Sublist as := by
  induction as generalizing vs with
  | nil => exact .slnil
  | cons a as ih =>
      obtain _ | ⟨v, vs⟩ := vs
      · exact List.Sublist.refl _
      · rw [spared]
        split
        · exact (ih vs).cons a
        · exact (ih vs).cons_cons a

/-- Nothing is dropped just where no entry is accepted. -/
theorem spared_eq_self_iff {as : List α} {vs : List (Except ε Bool)} (h : vs.length ≤ as.length) :
    spared as vs = as ↔ .ok true ∉ vs := by
  induction as generalizing vs with
  | nil => simp [List.eq_nil_of_length_eq_zero (Nat.le_zero.1 h), spared]
  | cons a as ih =>
      obtain _ | ⟨v, vs⟩ := vs
      · simp [spared]
      have hrest := ih (Nat.le_of_succ_le_succ h)
      rw [spared]
      split
      · rename_i haccepted
        have hshort := (spared_sublist as vs).length_le
        refine ⟨fun heq => ?_, fun hnone => ?_⟩
        · rw [heq, List.length_cons] at hshort
          omega
        · exact absurd (isAcceptance_iff.1 haccepted ▸ List.mem_cons_self) hnone
      · rename_i hrefused
        rw [isAcceptance_iff, eq_comm] at hrefused
        simp [hrest, hrefused]

/-- The elements that pass a test are those that it accepts, where it decides them all. -/
theorem passing_eq_accepted {test : α → Except ε Bool} {as found : List α}
    (h : passing test as = .ok found) : found = as.filter fun a => isAcceptance (test a) := by
  rw [passing_eq_filter h]
  refine List.filter_congr fun a _ => ?_
  rcases test a with e | _ | _ <;> rfl

theorem firstFailure_of_passing {test : α → Except ε Bool} {as found : List α}
    (h : passing test as = .ok found) : firstFailure (as.map test) = none := by
  have hdecided := exists_passing_iff.1 ⟨found, h⟩
  clear h
  induction as with
  | nil => rfl
  | cons a rest ih =>
      obtain ⟨⟨passes, ha⟩, hrest⟩ := List.forall_mem_cons.1 hdecided
      rw [List.map_cons, ha]
      exact ih hrest

/-- Of entries that are all decided, those that do not pass are spared. -/
theorem spared_map (as : List α) (test : α → Except ε Bool) :
    spared as (as.map test) = as.filter fun a => !isAcceptance (test a) := by
  induction as with
  | nil => rfl
  | cons a as ih =>
      rw [List.map_cons, spared, List.filter_cons, ih]
      cases isAcceptance (test a) <;> rfl

end Operator

end EventQuery
