import EventQuery.Proofs.Eval.Failure
import EventQuery.Proofs.Lookup.Shortcuts
import EventQuery.Proofs.Lookup.Soundness

/-!
What plans evaluate. A plan evaluates gates and probes once, on the matching event alone, and its
verifiers on the candidates that are left to check; it fails exactly where one of these evaluations
does. Where a scan of the store succeeds, the failing one is an evaluation that the scan does not
come to: a gate or a probe, which no guard to its left protects, or a check of the right side of an
`or` on an event that satisfies the left side.
-/

namespace EventQuery

namespace Code

/-- The operands of logical operators. -/
inductive Operand : Code → Code → Prop
  | andLeft {l r : Code} : Operand (.and l r) l
  | andRight {l r : Code} : Operand (.and l r) r
  | orLeft {l r : Code} : Operand (.or l r) l
  | orRight {l r : Code} : Operand (.or l r) r
  | not {c : Code} : Operand (.not c) c

/-- A condition is made of its parts by `and`, `or` and `not`. -/
def HasPart : Code → Code → Prop := Relation.ReflTransGen Operand

end Code

namespace Search

variable {s : Search} {c c' l r : Code} {e : StoredEvent} {m m' : Memory} {x : EvalError}
  {found : CandidateSet} {verifier : Option Code} {z : Evaluation}

/-- The candidates that are left to check. -/
def pending (s : Search) : CandidateSet → EventSet
  | .all => s.holder.events
  | .exact _ => []
  | .superset events => events

theorem pending_subset (hproper : found.Proper s.holder.events) (he : e ∈ s.pending found) :
    e ∈ s.holder.events := by
  cases found with
  | all => exact he
  | exact events => cases he
  | superset events => exact hproper.subset e he

/-- A check fails at the first candidate that the verifier fails on. -/
theorem verify_eq_error :
    s.verify found verifier m = (.error x, m') ↔
      ∃ c before e after passed m₁, verifier = some c ∧ s.pending found = before ++ e :: after ∧
        s.filter c before m = (.ok passed, m₁) ∧
        c.run s.rows (s.candidate e) m₁ = (.error x, m') := by
  cases verifier with
  | none =>
      refine iff_of_false (fun h => ?_) ?_
      · cases found <;> cases h
      · rintro ⟨c, before, e, after, passed, m₁, h, -⟩
        cases h
  | some c =>
      -- A superset and all stored events are filtered in the same way.
      have hfilter (events : EventSet) :
          (do return .exact (← s.filter c events) : Run EvalError CandidateSet) m = (.error x, m') ↔
            ∃ d before e after passed m₁, some c = some d ∧ events = before ++ e :: after ∧
              s.filter d before m = (.ok passed, m₁) ∧
              d.run s.rows (s.candidate e) m₁ = (.error x, m') := by
        refine (Run.map_eq_error.trans Run.filterM_eq_error).trans ⟨?_, ?_⟩
        · rintro ⟨before, e, after, passed, m₁, hsplit, hbefore, he⟩
          exact ⟨c, before, e, after, passed, m₁, rfl, hsplit, hbefore, Run.map_eq_error.1 he⟩
        · rintro ⟨d, before, e, after, passed, m₁, hd, hsplit, hbefore, he⟩
          cases hd
          exact ⟨before, e, after, passed, m₁, hsplit, hbefore, Run.map_eq_error.2 he⟩
      cases found with
      | all => exact hfilter s.holder.events
      | superset events => exact hfilter events
      | exact events =>
          refine iff_of_false nofun ?_
          rintro ⟨d, before, e, after, passed, m₁, -, hsplit, -⟩
          simp [pending] at hsplit

/-! ### Evaluations that a scan does not come to -/

/-- An evaluation of a part of a condition that a scan makes elsewhere, if at all. Gates and probes
are evaluated on the matching event alone; the right side of an `or` is checked on stored events
that its left side has accepted. -/
inductive Eager (s : Search) (c : Code) : Evaluation → Prop
  | gate {d : Code} {m : Memory} (part : c.HasPart d) (ignores : d.ignores s.storeSlot = true) :
      Eager s c ⟨d, s.matching, m⟩
  | probeRight {op : Comparison} {position : Nat} {type : AttributeType} {d : Code} {m : Memory}
      (part : c.HasPart (.compare op (.read s.storeSlot position type) d))
      (ignores : d.ignores s.storeSlot = true) : Eager s c ⟨d, s.matching, m⟩
  | probeLeft {op : Comparison} {position : Nat} {type : AttributeType} {d : Code} {m : Memory}
      (part : c.HasPart (.compare op d (.read s.storeSlot position type)))
      (ignores : d.ignores s.storeSlot = true) : Eager s c ⟨d, s.matching, m⟩
  | passed {l r d : Code} {e : StoredEvent} {m : Memory} (stored : e ∈ s.holder.events)
      (part : c.HasPart (.or l r)) (accepted : s.outcome l e = .ok true) (inside : r.HasPart d) :
      Eager s c ⟨d, s.candidate e, m⟩

theorem Eager.mono (h : s.Eager c z) (hpart : c'.HasPart c) : s.Eager c' z := by
  cases h with
  | gate part ignores => exact .gate (hpart.trans part) ignores
  | probeRight part ignores => exact .probeRight (hpart.trans part) ignores
  | probeLeft part ignores => exact .probeLeft (hpart.trans part) ignores
  | passed stored part accepted inside => exact .passed stored (hpart.trans part) accepted inside

/-- An evaluation of a part of a condition on a stored event on which the condition fails as a
whole, so that a scan fails there too. -/
inductive FailsScan (s : Search) (c : Code) : Evaluation → Prop
  | intro {d : Code} {e : StoredEvent} {m : Memory} {x : EvalError} (stored : e ∈ s.holder.events)
      (part : c.HasPart d) (fails : s.outcome c e = .error x) : FailsScan s c ⟨d, s.candidate e, m⟩

/-- A part that fails fails the condition, if it does so on every event. -/
theorem FailsScan.mono (h : s.FailsScan c z) (hoperand : Code.Operand c' c)
    (hfails : ∀ e x, s.outcome c e = .error x → s.outcome c' e = .error x) : s.FailsScan c' z := by
  cases h with
  | intro stored part fails => exact .intro stored (.head hoperand part) (hfails _ _ fails)

theorem outcome_of_fails (hc : c.isStateless = true)
    (h : Evaluation.Fails s.rows ⟨c, s.candidate e, m⟩ x) : s.outcome c e = .error x := by
  obtain ⟨m', h⟩ := h
  rw [Code.run_eq_value s.rows c _ hc, Run.run_ofExcept] at h
  rw [outcome, Code.decision, (Prod.mk.inj h).1]
  rfl

theorem outcome_and_error (h : s.outcome l e = .error x) : s.outcome (.and l r) e = .error x := by
  rw [outcome_and, h]
  rfl

theorem outcome_or_error (h : s.outcome l e = .error x) : s.outcome (.or l r) e = .error x := by
  rw [outcome_or, h]
  rfl

/-- A disjunction has the outcome of its right side where its left side is not true. -/
theorem outcome_or_false (h : s.outcome l e = .ok false) :
    s.outcome (.or l r) e = s.outcome r e := by
  rw [outcome_or, h]
  rfl

theorem outcome_not_error (h : s.outcome c e = .error x) : s.outcome (.not c) e = .error x := by
  rw [outcome_not, h]
  rfl

end Search

namespace Plan

open Search

/-- What a plan evaluates in a search that is started with a memory. The inner plan of a gate is
searched where the gate is open, and the right side of a conjunction where the left side has
candidates; both sides of a disjunction are searched in any case. A verifier is evaluated on the
candidates up to the first that it fails on. -/
inductive Evaluates (s : Search) : Plan → Memory → Evaluation → Prop
  | probe {name : String} {op : Comparison} {position : Nat} {value : Code} {m : Memory} :
      Evaluates s (.compare name op position value) m ⟨value, s.matching, m⟩
  | gate {condition : Code} {m : Memory} :
      Evaluates s (.gate condition) m ⟨condition, s.matching, m⟩
  | gated {condition : Code} {inner : Plan} {m : Memory} :
      Evaluates s (.gated condition inner) m ⟨condition, s.matching, m⟩
  | opened {condition : Code} {inner : Plan} {m m₁ : Memory} {z : Evaluation}
      (isOpen : condition.test s.rows s.matching m = (.ok true, m₁))
      (search : Evaluates s inner m₁ z) : Evaluates s (.gated condition inner) m z
  | bothLeft {left right : Plan} {verifier : Option Code} {m : Memory} {z : Evaluation}
      (search : Evaluates s left m z) : Evaluates s (.both left right verifier) m z
  | bothRight {left right : Plan} {verifier : Option Code} {m m₁ : Memory} {found : CandidateSet}
      {z : Evaluation} (searched : left.findCandidates s m = (.ok found, m₁))
      (remains : found.isExactlyEmpty = false) (search : Evaluates s right m₁ z) :
      Evaluates s (.both left right verifier) m z
  | narrowed {indexed : Plan} {verifier : Option Code} {m : Memory} {z : Evaluation}
      (search : Evaluates s indexed m z) : Evaluates s (.narrowed indexed verifier) m z
  | eitherLeft {left right : Plan} {verifier : Option Code} {m : Memory} {z : Evaluation}
      (search : Evaluates s left m z) : Evaluates s (.either left right verifier) m z
  | eitherRight {left right : Plan} {verifier : Option Code} {m m₁ : Memory} {found : CandidateSet}
      {z : Evaluation} (searched : left.findCandidates s m = (.ok found, m₁))
      (search : Evaluates s right m₁ z) : Evaluates s (.either left right verifier) m z
  | complement {inner : Plan} {verifier : Option Code} {m : Memory} {z : Evaluation}
      (search : Evaluates s inner m z) : Evaluates s (.complement inner verifier) m z
  | check {p : Plan} {condition : Code} {found : CandidateSet} {before after passed : EventSet}
      {e : StoredEvent} {m m₁ m₂ : Memory} (verifies : p.verifier? = some condition)
      (narrowed : p.narrow s m = (.ok found, m₁)) (rest : s.pending found = before ++ e :: after)
      (checked : s.filter condition before m₁ = (.ok passed, m₂)) :
      Evaluates s p m ⟨condition, s.candidate e, m₂⟩

variable {s : Search} {p : Plan} {m m' : Memory} {x : EvalError} {z : Evaluation}

/-- The search fails with the evaluation. -/
theorem Evaluates.fails (h : p.Evaluates s m z) (hz : z.Fails s.rows x) :
    ∃ m', p.findCandidates s m = (.error x, m') := by
  obtain ⟨m', hz⟩ := hz
  refine ⟨m', ?_⟩
  induction h with
  | probe => exact Run.bind_of_error hz
  | gate | gated => exact Run.bind_of_error (Run.bind_of_error hz)
  | opened isOpen _ ih =>
      rw [findCandidates, Run.bind_of_ok isOpen]
      exact ih hz
  | bothLeft _ ih | narrowed _ ih | eitherLeft _ ih | complement _ ih =>
      rw [findCandidates]
      exact Run.bind_of_error (ih hz)
  | bothRight searched remains _ ih =>
      rw [findCandidates, Run.bind_of_ok searched, remains]
      exact Run.bind_of_error (ih hz)
  | eitherRight searched _ ih =>
      rw [findCandidates, Run.bind_of_ok searched]
      exact Run.bind_of_error (ih hz)
  | check verifies narrowed rest checked =>
      rw [findCandidates_eq, Run.bind_of_ok narrowed, verifies]
      exact verify_eq_error.2 ⟨_, _, _, _, _, _, rfl, rest, checked, hz⟩

/-- A search fails before it checks what is left, or in the check. -/
theorem narrow_or_check (h : p.findCandidates s m = (.error x, m')) :
    p.narrow s m = (.error x, m') ∨ ∃ z, p.Evaluates s m z ∧ z.Fails s.rows x := by
  rw [findCandidates_eq] at h
  refine (Run.bind_eq_error.1 h).imp_right ?_
  rintro ⟨found, m₁, hnarrow, hverify⟩
  obtain ⟨c, before, e, after, passed, m₂, hverifier, hleft, hbefore, hrun⟩ :=
    verify_eq_error.1 hverify
  exact ⟨_, .check hverifier hnarrow hleft hbefore, m', hrun⟩

/-- A search that fails has come to an evaluation that fails. -/
theorem exists_evaluates (h : p.findCandidates s m = (.error x, m')) :
    ∃ z, p.Evaluates s m z ∧ z.Fails s.rows x := by
  induction p generalizing m m' with
  | compare name op position value =>
      rcases Run.bind_eq_error.1 h with h | ⟨probe, m₁, -, h⟩
      · exact ⟨_, .probe, m', h⟩
      · split at h
        · cases h
        · split at h <;> cases h
  | isNull name => cases h
  | gate condition =>
      rcases Run.bind_eq_error.1 h with h | ⟨opened, m₁, -, h⟩
      · exact ⟨_, .gate, m', Run.map_eq_error.1 h⟩
      · cases opened <;> cases h
  | gated condition inner ih =>
      rcases Run.bind_eq_error.1 h with h | ⟨opened, m₁, hopen, h⟩
      · exact ⟨_, .gated, m', Run.map_eq_error.1 h⟩
      · cases opened with
        | false => cases h
        | true =>
            obtain ⟨z, hz, hfails⟩ := ih h
            exact ⟨z, .opened hopen hz, hfails⟩
  | both left right verifier ihl ihr =>
      refine (narrow_or_check h).elim (fun h => ?_) id
      rcases Run.bind_eq_error.1 h with h | ⟨found, m₁, hleft, h⟩
      · obtain ⟨z, hz, hfails⟩ := ihl h
        exact ⟨z, .bothLeft hz, hfails⟩
      · split at h
        · cases h
        · rename_i hempty
          obtain ⟨z, hz, hfails⟩ := ihr (Run.map_eq_error.1 h)
          exact ⟨z, .bothRight hleft (Bool.eq_false_iff.2 hempty) hz, hfails⟩
  | narrowed indexed verifier ih =>
      refine (narrow_or_check h).elim (fun h => ?_) id
      obtain ⟨z, hz, hfails⟩ := ih (Run.map_eq_error.1 h)
      exact ⟨z, .narrowed hz, hfails⟩
  | either left right verifier ihl ihr =>
      refine (narrow_or_check h).elim (fun h => ?_) id
      rcases Run.bind_eq_error.1 h with h | ⟨found, m₁, hleft, h⟩
      · obtain ⟨z, hz, hfails⟩ := ihl h
        exact ⟨z, .eitherLeft hz, hfails⟩
      · obtain ⟨z, hz, hfails⟩ := ihr (Run.map_eq_error.1 h)
        exact ⟨z, .eitherRight hleft hz, hfails⟩
  | complement inner verifier ih =>
      refine (narrow_or_check h).elim (fun h => ?_) id
      obtain ⟨z, hz, hfails⟩ := ih (Run.map_eq_error.1 h)
      exact ⟨z, .complement hz, hfails⟩
  | scan verifier =>
      refine (narrow_or_check h).elim (fun h => ?_) id
      cases h

/-- A search fails exactly where one of its evaluations does. -/
theorem findCandidates_fails_iff :
    (∃ m', p.findCandidates s m = (.error x, m')) ↔
      ∃ z, p.Evaluates s m z ∧ z.Fails s.rows x := by
  constructor
  · rintro ⟨m', h⟩
    exact exists_evaluates h
  · rintro ⟨z, hz, hfails⟩
    exact hz.fails hfails

/-! ### Failures that a scan does not meet -/

variable {context : Context} {capability : Capability} {info : MatchLayout} {cl : Classified}
  {c : Code} {isFirst : Bool} {n k : Nat}

/-- A verifier that fails on a candidate fails a scan at the same event. -/
theorem failsScan_of_check (hs : s.holder.Consistent) {e : Expr} {condition : Code}
    {verifier : Option Code} {found : CandidateSet} {before after : EventSet} {y : StoredEvent}
    {m₁ m₂ : Memory} (compiles : Compile.Compiles context info.layout e c)
    (verified : verifierFor context info isFirst e n = .ok (verifier, k))
    (verifies : verifier = some condition) (narrowed : p.narrow s m = (.ok found, m₁))
    (rest : s.pending found = before ++ y :: after)
    (hz : Evaluation.Fails s.rows ⟨condition, s.candidate y, m₂⟩ x) :
    isFirst = true ∧ s.FailsScan c ⟨condition, s.candidate y, m₂⟩ := by
  rw [verifierFor_eq compiles verified] at verifies
  cases isFirst with
  | false => cases verifies
  | true =>
      cases verifies
      have hy : y ∈ s.pending found := by simp [rest]
      have hstored := pending_subset (proper_of_narrow hs narrowed) hy
      exact ⟨rfl, .intro hstored .refl (outcome_of_fails compiles.stateless hz)⟩

/-- An evaluation of a plan that fails is eager, or it fails a scan too. The plans of inner nodes
have no verifiers, so theirs are eager. -/
theorem eager_or_failsScan (hs : s.holder.Consistent) (hslot : s.storeSlot = info.storeSlot)
    (hcl : Describes context capability info cl c)
    (hp : Built context capability info cl isFirst n p k) (hz : p.Evaluates s m z)
    (hfails : z.Fails s.rows x) : s.Eager c z ∨ isFirst = true ∧ s.FailsScan c z := by
  induction hp generalizing c m with
  | gate tested =>
      cases hcl with
      | independent compiles ignores =>
          cases hz with
          | gate =>
              rw [condition_eq compiles tested]
              exact .inl (.gate .refl (hslot ▸ ignores))
          | check verifies => cases verifies
  | scan verified =>
      cases hcl with
      | exhaustive compiles _ =>
          cases hz with
          | check verifies narrowed rest _ =>
              exact .inr (failsScan_of_check hs compiles verified verifies narrowed rest hfails)
  | truth hposition =>
      obtain ⟨_, hfails⟩ := hfails
      cases hz with
      | probe => cases hfails
      | check verifies => cases verifies
  | readAll tested =>
      obtain ⟨_, hfails⟩ := hfails
      cases hcl with
      | named compiles _ =>
          cases hz with
          | check verifies =>
              cases verifies
              rw [condition_eq compiles tested] at hfails
              cases hfails
  | lookup hv hposition =>
      cases hz with
      | check verifies => cases verifies
      | probe =>
          cases hcl with
          | lookup compiles probe ignores found =>
              rw [← hslot] at ignores ⊢
              rw [probe.code_eq hv]
              exact .inl (.probeRight .refl ignores)
          | mirrored compiles probe ignores found =>
              rw [← hslot] at ignores ⊢
              rw [probe.code_eq hv]
              exact .inl (.probeLeft .refl ignores)
  | isNull =>
      cases hz with
      | check verifies => cases verifies
  | gatedLeft independent tested _ ih =>
      cases hcl with
      | @and _ _ _ l r compiles _ left right =>
          have hignores : l.ignores s.storeSlot = true := hslot ▸ left.ignores_iff.2 independent
          rw [condition_eq left.compiles tested] at hz
          cases hz with
          | check verifies => cases verifies
          | gated => exact .inl (.gate (.single .andLeft) hignores)
          | opened isOpen search =>
              -- The gate is true on the matching event, so it is on every stored one.
              rw [Code.test_eq_decision left.compiles.stateless, Run.run_ofExcept] at isOpen
              have hpasses (e : StoredEvent) (y : EvalError) (h : s.outcome r e = .error y) :
                  s.outcome (.and l r) e = .error y := by
                rw [outcome_and, outcome_of_ignores hignores, (Prod.mk.inj isOpen).1]
                exact h
              exact (ih right search).imp (·.mono (.single .andRight))
                (.imp_right (·.mono .andRight hpasses))
  | gatedRight independent tested _ ih =>
      cases hcl with
      | @and _ _ _ l r compiles _ left right =>
          have hignores : r.ignores s.storeSlot = true := hslot ▸ right.ignores_iff.2 independent
          rw [condition_eq right.compiles tested] at hz
          cases hz with
          | check verifies => cases verifies
          | gated => exact .inl (.gate (.single .andRight) hignores)
          | opened isOpen search =>
              exact (ih left search).imp (·.mono (.single .andLeft))
                (.imp_right (·.mono .andLeft fun _ _ => outcome_and_error))
  | both _ _ _ _ verified ihl ihr =>
      cases hcl with
      | and compiles _ left right =>
          cases hz with
          | bothLeft search =>
              exact (ihl left search).imp (·.mono (.single .andLeft)) nofun
          | bothRight _ _ search =>
              exact (ihr right search).imp (·.mono (.single .andRight)) nofun
          | check verifies narrowed rest _ =>
              exact .inr (failsScan_of_check hs compiles verified verifies narrowed rest hfails)
  | narrowedLeft _ _ verified ih =>
      cases hcl with
      | and compiles _ left right =>
          cases hz with
          | narrowed search => exact (ih left search).imp (·.mono (.single .andLeft)) nofun
          | check verifies narrowed rest _ =>
              exact .inr (failsScan_of_check hs compiles verified verifies narrowed rest hfails)
  | narrowedRight _ _ verified ih =>
      cases hcl with
      | and compiles _ left right =>
          cases hz with
          | narrowed search =>
              exact (ih right search).imp (·.mono (.single .andRight)) nofun
          | check verifies narrowed rest _ =>
              exact .inr (failsScan_of_check hs compiles verified verifies narrowed rest hfails)
  | either _ _ verified ihl ihr =>
      cases hcl with
      | @or _ _ _ l r compiles _ left right =>
          cases hz with
          | eitherLeft search =>
              exact (ihl left search).imp (·.mono (.single .orLeft))
                (.imp_right (·.mono .orLeft fun _ _ => outcome_or_error))
          | eitherRight _ search =>
              rcases ihr right search with heager | ⟨hfirst, hscan⟩
              · exact .inl (heager.mono (.single .orRight))
              · cases hscan with
                | @intro d e _ _ stored part fails =>
                    have hinside : (Code.or l r).HasPart d := .head .orRight part
                    -- A scan comes to the right side where the left side is not true.
                    cases hl : s.outcome l e with
                    | error y => exact .inr ⟨hfirst, .intro stored hinside (outcome_or_error hl)⟩
                    | ok accepted =>
                        cases accepted with
                        | true => exact .inl (.passed stored .refl hl part)
                        | false =>
                            rw [← outcome_or_false hl] at fails
                            exact .inr ⟨hfirst, .intro stored hinside fails⟩
          | check verifies narrowed rest _ =>
              exact .inr (failsScan_of_check hs compiles verified verifies narrowed rest hfails)
  | complement _ verified ih =>
      cases hcl with
      | not compiles _ operand =>
          cases hz with
          | complement search =>
              exact (ih operand search).imp (·.mono (.single .not))
                (.imp_right (·.mono .not fun _ _ => outcome_not_error))
          | check verifies narrowed rest _ =>
              exact .inr (failsScan_of_check hs compiles verified verifies narrowed rest hfails)

/-- Where a scan would succeed, every evaluation of a plan that fails is eager. -/
theorem eager_of_fails (hs : s.holder.Consistent) (hslot : s.storeSlot = info.storeSlot)
    (hcl : Describes context capability info cl c)
    (hp : Built context capability info cl isFirst n p k)
    (hscan : ∀ e ∈ s.holder.events, ∃ b, s.outcome c e = .ok b) (hz : p.Evaluates s m z)
    (hfails : z.Fails s.rows x) : s.Eager c z := by
  rcases eager_or_failsScan hs hslot hcl hp hz hfails with heager | ⟨-, hfailsScan⟩
  · exact heager
  · cases hfailsScan with
    | intro stored _ fails =>
        obtain ⟨b, hb⟩ := hscan _ stored
        cases hb.symm.trans fails

/-- A plan that answers as outermost plans do fails as the search for candidates does. -/
theorem find_error_iff (h : s.Answered true c (p.findCandidates s)) :
    p.find s m = (.error (.eval x), m) ↔ ∃ m', p.findCandidates s m = (.error x, m') := by
  rcases find_of_answered h with ⟨events, hfind, -⟩ | ⟨y, hsearch, hfind⟩
  · rw [hfind]
    refine iff_of_false nofun ?_
    rintro ⟨m', herror⟩
    have hfails : p.find s m = (.error (.eval x), m') :=
      Run.bind_of_error (Run.mapError_of_error _ herror)
    rw [hfind] at hfails
    cases hfails
  · rw [hfind, hsearch, Run.run_ofExcept, Run.run_ofExcept]
    constructor
    · intro h
      cases h
      exact ⟨m, rfl⟩
    · rintro ⟨m', h⟩
      cases h
      rfl

end Plan

namespace Operator

variable {d : Definition} {primaryKey : Option String} {indexes : List String} {h h₀ : Holder}
  {context : Context} {info : MatchLayout} {capability seen : Capability} {e : Expr}
  {index scan : Stateful Operator}

/-- Where a scan succeeds, a lookup succeeds too, or it fails with the error of an evaluation. It
fails so exactly where an eager evaluation of its plan does; there are no internal errors. -/
theorem find_indexed_of_scan (hreachable : Holder.Reachable d primaryKey indexes h)
    (hinfo : info.Carries h.definition) (hdefinition : capability.definition = h.definition)
    (hfree : e.isAggregateFree = true)
    (hindex : (compile context info e (.indexed h₀ capability)).finish = .ok index)
    (hscan : (compile context info e (.chunk h.events)).finish = .ok scan) {p : Plan} {c : Code}
    (hplan : index.code.strategy = .plan p) (hcode : scan.code.strategy = .scan .chunk c)
    {rows : SourceRows} {matching : Frame} {n n' : Memory} {scanned : List StoredEvent}
    (hscanned : scan.code.find rows matching (.chunk h.events) n = (.ok scanned, n'))
    (m : Memory) :
    ((∃ found, index.code.find rows matching (.indexed h seen) m = (.ok found, m)) ∨
        ∃ x, index.code.find rows matching (.indexed h seen) m = (.error (.eval x), m)) ∧
      ∀ x, index.code.find rows matching (.indexed h seen) m = (.error (.eval x), m) ↔
        ∃ z, p.Evaluates ⟨rows, h, info.storeSlot, matching⟩ m z ∧
          Search.Eager ⟨rows, h, info.storeSlot, matching⟩ c z ∧ z.Fails rows x := by
  have hs := hreachable.consistent
  obtain ⟨p', cl, c', _, _, hp', hc', hdescribes, hbuild⟩ :=
    parts_of_compile hinfo hdefinition hfree hindex hscan
  rw [hp'] at hplan ⊢
  rw [hc'] at hcode hscanned
  cases hplan
  cases hcode
  obtain ⟨hok, -⟩ := outcome_of_find_scan (s := ⟨rows, h, info.storeSlot, matching⟩)
    hdescribes.compiles.stateless hscanned
  have hanswered := Plan.answered_of_build (s := ⟨rows, h, info.storeSlot, matching⟩) hs rfl
    hdefinition hdescribes hbuild
  change ((∃ found, p.find ⟨rows, h, info.storeSlot, matching⟩ m = (.ok found, m)) ∨
      ∃ x, p.find ⟨rows, h, info.storeSlot, matching⟩ m = (.error (.eval x), m)) ∧
    ∀ x, p.find ⟨rows, h, info.storeSlot, matching⟩ m = (.error (.eval x), m) ↔ _
  constructor
  · rcases Plan.find_of_answered hanswered with ⟨events, hfind, -⟩ | ⟨x, -, hfind⟩
    · exact .inl ⟨events, congrFun hfind m⟩
    · exact .inr ⟨x, congrFun hfind m⟩
  · intro x
    rw [Plan.find_error_iff hanswered, Plan.findCandidates_fails_iff]
    refine exists_congr fun z => ⟨fun ⟨hz, hfails⟩ => ?_, fun ⟨hz, _, hfails⟩ => ⟨hz, hfails⟩⟩
    exact ⟨hz, Plan.eager_of_fails hs rfl hdescribes (Plan.built_of_build hbuild) hok hz hfails,
      hfails⟩

namespace Quotes

/-- The search for quotes with an order whose `y` is zero. -/
def search : Search := ⟨fun _ => [], store, 1, order 9 0⟩

/-- The evaluation of the probe `x / y` in the search. -/
def division : Evaluation := ⟨quotient, search.matching, .fresh 0⟩

end Quotes

/-- Where `y` is zero the scan finds every quote. The lookup fails with the error of its probe,
which it evaluates after the open gate. -/
theorem find_indexed_of_scan_quotes :
    Quotes.scan.find Quotes.search.rows Quotes.search.matching (.chunk Quotes.store.events)
        (.fresh 0) = (.ok Quotes.store.events, .fresh 0) ∧
      Quotes.plan.Evaluates Quotes.search (.fresh 0) Quotes.division ∧
      Quotes.search.Eager Quotes.code Quotes.division ∧
      Quotes.division.Fails Quotes.search.rows .divisionByZero ∧
      Quotes.lookup.find Quotes.search.rows Quotes.search.matching
        (.indexed Quotes.store Quotes.store.capability) (.fresh 0) =
          (.error (.eval .divisionByZero), .fresh 0) := by
  have hscanned : Quotes.scan.find Quotes.search.rows Quotes.search.matching
      (.chunk Quotes.store.events) (.fresh 0) = (.ok Quotes.store.events, .fresh 0) := by
    decide +kernel
  have hgate : (Plan.gate Quotes.guard).findCandidates Quotes.search (.fresh 0) =
      (.ok (.exact Quotes.store.events), .fresh 0) := by
    decide +kernel
  have hprobe : Quotes.plan.Evaluates Quotes.search (.fresh 0) Quotes.division :=
    .eitherRight hgate .probe
  have heager : Quotes.search.Eager Quotes.code Quotes.division :=
    .probeRight (.single .orRight) rfl
  have hfails : Quotes.division.Fails Quotes.search.rows .divisionByZero :=
    ⟨.fresh 0, by decide +kernel⟩
  refine ⟨hscanned, hprobe, heager, hfails, ?_⟩
  exact ((find_indexed_of_scan Quotes.reachable_store Quotes.carries_store rfl rfl
    Quotes.compile_lookup Quotes.compile_scan rfl rfl hscanned (.fresh 0)).2 _).2
      ⟨Quotes.division, hprobe, heager, hfails⟩

/-- A guard to the left of `or` does not protect the lookup: where `y` is zero the scan finds every
quote, and the lookup divides by zero. -/
theorem find_indexed_fails_quotes :
    Holder.Reachable Quotes.definition none ["price"] Quotes.store ∧
      Quotes.layout.Carries Quotes.store.definition ∧ Quotes.guarded.isAggregateFree = true ∧
      ∃ index scan : Stateful Operator,
        (compile .standard Quotes.layout Quotes.guarded
            (.indexed Quotes.store Quotes.store.capability)).finish = .ok index ∧
          (compile .standard Quotes.layout Quotes.guarded (.chunk Quotes.store.events)).finish =
            .ok scan ∧
          scan.code.find (fun _ => []) (Quotes.order 9 0) (.chunk Quotes.store.events) scan.memory =
            (.ok Quotes.store.events, scan.memory) ∧
          index.code.find (fun _ => []) (Quotes.order 9 0)
            (.indexed Quotes.store Quotes.store.capability) index.memory =
              (.error (.eval .divisionByZero), index.memory) :=
  ⟨Quotes.reachable_store, Quotes.carries_store, rfl, ⟨Quotes.lookup, .fresh 0⟩,
    ⟨Quotes.scan, .fresh 0⟩, Quotes.compile_lookup, Quotes.compile_scan, by decide +kernel,
    by decide +kernel⟩

end Operator

end EventQuery
