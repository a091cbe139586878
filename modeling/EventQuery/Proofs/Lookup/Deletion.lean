import EventQuery.Proofs.Lookup.Retain
import EventQuery.Proofs.Lookup.Soundness

/-!
What a deletion leaves behind. An operator of an indexed store finds all matches before it removes
any. A scan removes while it tests, so what it leaves is told by the verdicts on the candidates,
also where one of them is a failure.
-/

namespace EventQuery

open Run

namespace Container

/-- What is left of a container of which the accepted candidates are removed. -/
def spare (vs : List (Except LookupError Bool)) : Container → Container
  | .chunk events => .chunk (Operator.spared events vs)
  | .map entries => .map (Operator.spared entries vs)
  | .collection events => .collection (Operator.spared events vs)
  | c => c

/-- The container without the entries whose events fail a test. -/
def keep (test : StoredEvent → Bool) : Container → Container
  | .chunk events => .chunk (events.filter test)
  | .map entries => .map (entries.filter fun entry => test entry.2)
  | .collection events => .collection (events.filter test)
  | c => c

variable {c : Container} {vs : List (Except LookupError Bool)}

@[simp] theorem spare_nil (c : Container) : c.spare [] = c := by cases c <;> simp [spare]

/-- Nothing is removed just where no candidate is accepted. -/
theorem spare_eq_self_iff (hkind : c.kind? ≠ some .indexed) (h : vs.length ≤ c.events.length) :
    c.spare vs = c ↔ .ok true ∉ vs := by
  cases c with
  | chunk events | collection events =>
      rw [← Operator.spared_eq_self_iff h]
      simp [spare, Container.events]
  | map entries =>
      rw [← Operator.spared_eq_self_iff (by simpa [Container.events] using h)]
      simp [spare]
  | indexed holder capability => exact absurd rfl hkind
  | other name =>
      obtain rfl := List.eq_nil_of_length_eq_zero (Nat.le_zero.1 h)
      simp [spare]

/-- Of candidates that are decided one by one, those that do not pass are left. -/
theorem spare_map (c : Container) (test : StoredEvent → Except LookupError Bool) :
    c.spare (c.events.map test) = c.keep fun e => !isAcceptance (test e) := by
  cases c with
  | chunk events | collection events =>
      simp only [spare, keep, Container.events, Operator.spared_map]
  | map entries =>
      simp only [spare, keep, Container.events, List.map_map]
      exact congrArg _ (Operator.spared_map entries fun entry => test entry.2)
  | indexed | other => rfl

end Container

namespace Operator

variable {o : Operator} {rows : SourceRows} {matching : Frame} {c : Container} {m : Memory}

/-- The verdicts on the candidates of a container while an operator deletes from it. An operator of
an indexed store gives none, as it lists its matches first. -/
def judge (o : Operator) (rows : SourceRows) (matching : Frame) (c : Container) :
    StateM Memory (List (Except LookupError Bool)) :=
  match o.strategy with
  | .plan _ => pure []
  | .scan kind condition =>
    if c.kind? = some kind then verdicts (o.accepts rows matching condition) c.events else pure []

theorem length_judge (o : Operator) (rows : SourceRows) (matching : Frame) (c : Container)
    (m : Memory) : (o.judge rows matching c m).1.length ≤ c.events.length := by
  unfold judge
  cases o.strategy with
  | plan p => exact Nat.zero_le _
  | scan kind condition =>
      by_cases hkind : c.kind? = some kind
      · simp only [if_pos hkind]
        exact Nat.le_of_eq (length_verdicts ..)
      · simp only [if_neg hkind]
        exact Nat.zero_le _

/-- What a removal reports: the first failure, or the number of candidates accepted. -/
def tally (vs : List (Except LookupError Bool)) : Except LookupError Nat :=
  match firstFailure vs with
  | some x => .error x
  | none => .ok (vs.countP isAcceptance)

/-- Where every candidate is decided, a removal reports how many pass. -/
theorem tally_of_passing {test : StoredEvent → Except LookupError Bool}
    {candidates found : List StoredEvent} (h : passing test candidates = .ok found) :
    tally (candidates.map test) = .ok found.length := by
  have hcount : (candidates.map test).countP isAcceptance = found.length := by
    rw [passing_eq_accepted h, List.countP_map, List.countP_eq_length_filter]
    rfl
  rw [tally, firstFailure_of_passing h, ← hcount]

theorem retainIn_eq {α : Type} (test : α → Run LookupError Bool) (entries : List α)
    (wrap : List α → Container) (m : Memory) :
    retainIn test entries wrap m =
      ((tally (verdicts test entries m).1, wrap (spared entries (verdicts test entries m).1)),
        (verdicts test entries m).2) := by
  have hlength := length_spared (length_verdicts test entries m)
  simp only [retainIn, state_bind, retain_eq, tally]
  cases firstFailure (verdicts test entries m).1 with
  | some e => rfl
  | none =>
      have hcount : entries.length - (spared entries (verdicts test entries m).1).length =
          (verdicts test entries m).1.countP isAcceptance := by omega
      simp only [hcount]
      rfl

/-- A scan removes the candidates that it accepts, and reports the first failure if there is one. -/
theorem delete_scan {kind : ContainerKind} {condition : Code}
    (hstrategy : o.strategy = .scan kind condition) (hscan : kind ≠ .indexed)
    (hkind : c.kind? = some kind) (m : Memory) :
    o.delete rows matching c m =
      ((tally (o.judge rows matching c m).1, c.spare (o.judge rows matching c m).1),
        (o.judge rows matching c m).2) := by
  simp only [delete, judge, hstrategy, if_pos hkind]
  cases c with
  | chunk events => exact retainIn_eq _ events .chunk m
  | collection events => exact retainIn_eq _ events .collection m
  | map entries =>
      simp only [Container.events, verdicts_map]
      exact retainIn_eq _ entries .map m
  | indexed holder capability => exact absurd (Option.some.inj hkind).symm hscan
  | other name => cases hkind

section Lookups

variable {p : Plan} {holder left : Holder} {capability : Capability} {removed : Nat}
  {x : LookupError} {m' : Memory}

/-- A lookup that deletes leaves the store that its plan gives. -/
theorem delete_plan_ok (hstrategy : o.strategy = .plan p)
    (h : p.delete ⟨rows, holder, o.storeSlot, matching⟩ m = (.ok (removed, left), m')) :
    o.delete rows matching (.indexed holder capability) m =
      ((.ok removed, .indexed left capability), m') := by
  have hrun : (p.delete ⟨rows, holder, o.storeSlot, matching⟩).run m = _ := h
  simp only [delete, hstrategy, state_bind, hrun]
  rfl

theorem delete_plan_error (hstrategy : o.strategy = .plan p)
    (h : p.delete ⟨rows, holder, o.storeSlot, matching⟩ m = (.error x, m')) :
    o.delete rows matching (.indexed holder capability) m =
      ((.error x, .indexed holder capability), m') := by
  have hrun : (p.delete ⟨rows, holder, o.storeSlot, matching⟩).run m = _ := h
  simp only [delete, hstrategy, state_bind, hrun]
  rfl

end Lookups

/-- An operator that was built for other containers leaves a container as it is. -/
theorem delete_mismatch (h : c.kind? ≠ some o.kind) (m : Memory) :
    o.delete rows matching c m = ((.error (o.mismatch c), c), m) := by
  unfold delete
  unfold kind at h
  cases hstrategy : o.strategy with
  | plan p =>
      rw [hstrategy] at h
      cases c with
      | indexed holder capability => exact absurd rfl h
      | chunk | map | collection | other => rfl
  | scan kind condition =>
      rw [hstrategy] at h
      simp only [if_neg h]
      rfl

/-- A lookup that fails to delete leaves the container as it was. -/
theorem delete_plan_failed {p : Plan} (hstrategy : o.strategy = .plan p) {x : LookupError}
    (h : (o.delete rows matching c m).1.1 = .error x) : (o.delete rows matching c m).1.2 = c := by
  by_cases hkind : c.kind? = some o.kind
  · have hindexed : o.kind = .indexed := by rw [kind, hstrategy]
    rw [hindexed] at hkind
    cases c with
    | indexed holder capability =>
        rcases hdelete : p.delete ⟨rows, holder, o.storeSlot, matching⟩ m with
          ⟨x | ⟨removed, left⟩, m'⟩
        · rw [delete_plan_error hstrategy hdelete]
        · rw [delete_plan_ok hstrategy hdelete] at h
          cases h
    | chunk | map | collection | other => cases hkind
  · rw [delete_mismatch hkind]

/-- A failed deletion leaves the candidates that it has not accepted. So it leaves the container as
it was just where it accepted none, and always where the operator is one of an indexed store. -/
theorem delete_failed_spares {x : LookupError} (h : (o.delete rows matching c m).1.1 = .error x) :
    (o.delete rows matching c m).1.2 = c.spare (o.judge rows matching c m).1 ∧
      ((o.delete rows matching c m).1.2 = c ↔ .ok true ∉ (o.judge rows matching c m).1) ∧
      (o.kind = .indexed → (o.delete rows matching c m).1.2 = c) := by
  have hunchanged (hnone : (o.judge rows matching c m).1 = [])
      (hsame : (o.delete rows matching c m).1.2 = c) :
      (o.delete rows matching c m).1.2 = c.spare (o.judge rows matching c m).1 ∧
        ((o.delete rows matching c m).1.2 = c ↔ .ok true ∉ (o.judge rows matching c m).1) ∧
        (o.kind = .indexed → (o.delete rows matching c m).1.2 = c) := by
    rw [hnone, Container.spare_nil]
    exact ⟨hsame, by simp [hsame], fun _ => hsame⟩
  cases hstrategy : o.strategy with
  | plan p => exact hunchanged (by rw [judge, hstrategy]; rfl) (delete_plan_failed hstrategy h)
  | scan kind condition =>
      have hscan : o.kind = kind := by rw [Operator.kind, hstrategy]
      by_cases hkind : c.kind? = some kind
      · by_cases hindexed : kind = .indexed
        · -- A scan has no container of this kind to remove from, so it does not fail.
          subst hindexed
          cases c with
          | indexed holder capability =>
              simp only [delete, hstrategy, if_pos hkind] at h
              cases h
          | chunk | map | collection | other => cases hkind
        · have hspared : o.delete rows matching c m = _ := delete_scan hstrategy hindexed hkind m
          have hother : c.kind? ≠ some .indexed := fun heq =>
            hindexed (Option.some.inj (hkind.symm.trans heq))
          rw [hspared]
          exact ⟨rfl, Container.spare_eq_self_iff hother (length_judge o rows matching c m),
            fun heq => absurd (hscan.symm.trans heq) hindexed⟩
      · refine hunchanged (by simp only [judge, hstrategy, if_neg hkind]; rfl) ?_
        rw [delete_mismatch (hscan ▸ hkind)]

namespace Quotes

/-- The condition `10 / t.price > 3`. -/
def cheap : Expr :=
  .compare .greater (.arith .divide (.const (.int 10)) (.var ⟨"price", some "t"⟩)) (.const (.int 3))

/-- Quotes of which the second one is cheap and the last one has no price to divide by. -/
def unpriced : List StoredEvent :=
  [⟨0, .current 0 [.string "A", .int 5]⟩, ⟨1, .current 0 [.string "B", .int 2]⟩,
    ⟨2, .current 0 [.string "C", .int 0]⟩]

def sweep : Operator :=
  ⟨.scan .chunk (.compare .greater (.arith .divide (.const (.int 10)) (.read 1 1 .int) .int)
    (.const (.int 3))), 1⟩

theorem compile_sweep :
    (compile .standard layout cheap (.chunk unpriced)).finish = .ok ⟨sweep, .fresh 0⟩ := rfl

end Quotes

/-- The deletion of the cheap quotes fails on the last one and leaves what it has not accepted. -/
theorem delete_failed_spares_quotes :
    let verdicts : List (Except LookupError Bool) :=
      [.ok false, .ok true, .error (.eval .divisionByZero)]
    (Quotes.sweep.judge (fun _ => []) (Quotes.order 1 1) (.chunk Quotes.unpriced) (.fresh 0)).1 =
        verdicts ∧
      (Quotes.sweep.delete (fun _ => []) (Quotes.order 1 1) (.chunk Quotes.unpriced)
        (.fresh 0)).1.1 = .error (.eval .divisionByZero) ∧
      (Quotes.sweep.delete (fun _ => []) (Quotes.order 1 1) (.chunk Quotes.unpriced)
        (.fresh 0)).1.2 = (Container.chunk Quotes.unpriced).spare verdicts := by
  have hjudge : (Quotes.sweep.judge (fun _ => []) (Quotes.order 1 1) (.chunk Quotes.unpriced)
      (.fresh 0)).1 = [.ok false, .ok true, .error (.eval .divisionByZero)] := by
    decide +kernel
  have hfailed : (Quotes.sweep.delete (fun _ => []) (Quotes.order 1 1) (.chunk Quotes.unpriced)
      (.fresh 0)).1.1 = .error (.eval .divisionByZero) := by
    decide +kernel
  exact ⟨hjudge, hfailed, by rw [(delete_failed_spares hfailed).1, hjudge]⟩

/-- The cheap quote is gone though its deletion fails on the last quote. -/
theorem delete_failed_removes_quotes :
    ∃ sweep : Stateful Operator,
      (compile .standard Quotes.layout Quotes.cheap (.chunk Quotes.unpriced)).finish = .ok sweep ∧
        (sweep.code.delete (fun _ => []) (Quotes.order 1 1) (.chunk Quotes.unpriced)
          sweep.memory).1.1 = .error (.eval .divisionByZero) ∧
        (sweep.code.delete (fun _ => []) (Quotes.order 1 1) (.chunk Quotes.unpriced)
          sweep.memory).1.2.events.map (·.id) = [0, 2] ∧
        (Container.chunk Quotes.unpriced).events.map (·.id) = [0, 1, 2] :=
  ⟨⟨Quotes.sweep, .fresh 0⟩, Quotes.compile_sweep, by decide +kernel, by decide +kernel, rfl⟩

end Operator

end EventQuery
