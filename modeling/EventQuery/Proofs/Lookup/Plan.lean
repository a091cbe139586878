import EventQuery.Proofs.Lookup.Building
import EventQuery.Proofs.Lookup.Candidates
import EventQuery.Proofs.Lookup.Classification
import EventQuery.Proofs.Store.Holder

/-!
Plans answer for the condition that they were built from. A set of stored events settles a condition
if it has the events that satisfy it and none of those that fail it; where the evaluation of the
condition fails on an event, either is right. Every node of a plan finds candidates that cover such
a set, unless the evaluation of a part fails.
-/

namespace EventQuery

namespace Search

variable {s : Search} {c l r : Code} {e : StoredEvent}

/-- What a scan finds out about a stored event. -/
def outcome (s : Search) (c : Code) (e : StoredEvent) : Except EvalError Bool :=
  c.decision s.rows (s.candidate e)

theorem outcome_and :
    s.outcome (.and l r) e = (do if ← s.outcome l e then s.outcome r e else return false) :=
  Code.decision_and

theorem outcome_and_true (h : s.outcome (.and l r) e = .ok true) :
    s.outcome l e = .ok true ∧ s.outcome r e = .ok true := by
  rw [outcome_and, Run.bind_eq_ok] at h
  obtain ⟨b, hl, hr⟩ := h
  cases b
  · cases hr
  · exact ⟨hl, hr⟩

theorem outcome_or :
    s.outcome (.or l r) e = (do if ← s.outcome l e then return true else s.outcome r e) := by
  simp only [outcome, Code.decision, Code.value]
  cases l.value s.rows (s.candidate e) with
  | error x => rfl
  | ok a =>
      simp only [Run.ok_bind, pure, Except.pure]
      cases a.isTrue
      · cases r.value s.rows (s.candidate e) <;> simp [bind, Except.bind]
      · rfl

theorem outcome_not : s.outcome (.not c) e = (do return !(← s.outcome c e)) := by
  simp only [outcome, Code.decision, Code.value]
  cases c.value s.rows (s.candidate e) <;> simp [bind, Except.bind, pure, Except.pure]

/-- Code that ignores the stored event has one outcome for all, that on the matching event alone. -/
theorem outcome_of_ignores (h : c.ignores s.storeSlot = true) (e : StoredEvent) :
    s.outcome c e = c.decision s.rows s.matching :=
  Code.decision_congr h (Frame.agreeOff_setSlot _ _ _)

theorem value_of_ignores (h : c.ignores s.storeSlot = true) (e : StoredEvent) :
    c.value s.rows (s.candidate e) = c.value s.rows s.matching :=
  Code.value_congr _ c h (Frame.agreeOff_setSlot _ _ _)

theorem value_read (s : Search) (position : Nat) (type : AttributeType) (e : StoredEvent) :
    (Code.read s.storeSlot position type).value s.rows (s.candidate e) =
      .ok (e.event.get position) := by
  simp [Code.value, candidate, Frame.slot_setSlot]

theorem outcome_compare {op : Comparison} {a b : Value}
    (hl : l.value s.rows (s.candidate e) = .ok a) (hr : r.value s.rows (s.candidate e) = .ok b) :
    s.outcome (.compare op l r) e = .ok (op.holds a b) := by
  simp [outcome, Code.decision, Code.value, hl, hr, pure, Except.pure]

theorem outcome_read (s : Search) (position : Nat) (type : AttributeType) (e : StoredEvent) :
    s.outcome (.read s.storeSlot position type) e = .ok (e.event.get position).isTrue := by
  simp [outcome, Code.decision, value_read, pure, Except.pure]

theorem outcome_isNull_read (s : Search) (position : Nat) (type : AttributeType) (e : StoredEvent) :
    s.outcome (.isNull (.read s.storeSlot position type)) e =
      .ok (e.event.get position).isNull := by
  rw [outcome, Code.decision, Code.value, value_read]
  simp [pure, Except.pure]

theorem filter_eq (h : c.isStateless = true) (events : EventSet) :
    s.filter c events = Run.ofExcept (Run.passing (s.outcome c) events) :=
  Run.filterM_ofExcept fun e _ => Code.test_eq_decision h (s.candidate e)

/-! ### Sets that settle a condition -/

/-- A set of stored events is right about a condition wherever its evaluation succeeds. -/
structure Settles (s : Search) (c : Code) (T : StoredEvent → Prop) : Prop where
  stored : ∀ e, T e → e ∈ s.holder.events
  decided : ∀ e ∈ s.holder.events, ∀ b, s.outcome c e = .ok b → (T e ↔ b = true)

variable {T U : StoredEvent → Prop}

theorem settles_outcome (s : Search) (c : Code) :
    s.Settles c fun e => e ∈ s.holder.events ∧ s.outcome c e = .ok true where
  stored _ he := he.1
  decided e he b hb := by simp [he, hb]

theorem Settles.and (hl : s.Settles l T) (hr : s.Settles r U) :
    s.Settles (.and l r) fun e => T e ∧ U e where
  stored e he := hl.stored e he.1
  decided e he b hb := by
    rw [outcome_and, Run.bind_eq_ok] at hb
    obtain ⟨left, hleft, hb⟩ := hb
    rw [hl.decided e he left hleft]
    cases left
    · cases hb
      simp
    · rw [hr.decided e he b hb]
      simp

theorem Settles.or (hl : s.Settles l T) (hr : s.Settles r U) :
    s.Settles (.or l r) fun e => T e ∨ U e where
  stored e he := he.elim (hl.stored e) (hr.stored e)
  decided e he b hb := by
    rw [outcome_or, Run.bind_eq_ok] at hb
    obtain ⟨left, hleft, hb⟩ := hb
    rw [hl.decided e he left hleft]
    cases left
    · rw [hr.decided e he b hb]
      simp
    · cases hb
      simp

theorem Settles.not (h : s.Settles c T) :
    s.Settles (.not c) fun e => e ∈ s.holder.events ∧ ¬T e where
  stored _ he := he.1
  decided e he b hb := by
    rw [outcome_not, Run.bind_eq_ok] at hb
    obtain ⟨inner, hinner, hb⟩ := hb
    cases hb
    rw [h.decided e he inner hinner]
    simp [he]

/-- A part that a condition implies settles it together with the condition itself. -/
theorem Settles.narrow (h : s.Settles l T)
    (himplies : ∀ e, s.outcome c e = .ok true → s.outcome l e = .ok true) :
    s.Settles c fun e => T e ∧ s.outcome c e = .ok true where
  stored e he := h.stored e he.1
  decided e he b hb := by
    constructor
    · rintro ⟨-, htrue⟩
      rw [hb] at htrue
      exact Except.ok.inj htrue
    · rintro rfl
      exact ⟨(h.decided e he true (himplies e hb)).2 rfl, hb⟩

/-! ### What a node of a plan answers -/

/-- An answer for a condition: candidates that cover a set that settles it, exact ones if a verifier
has seen them, or a failure. -/
def Answers (s : Search) (isFirst : Bool) (c : Code) : Except EvalError CandidateSet → Prop
  | .ok found =>
    (isFirst = true → found.isExact = true) ∧ found.Proper s.holder.events ∧
      ∃ T, s.Settles c T ∧ found.Covers T
  | .error _ => True

/-- A node gives an answer for a condition, and it leaves the memory alone. -/
def Answered (s : Search) (isFirst : Bool) (c : Code) (run : Run EvalError CandidateSet) : Prop :=
  ∃ result, run = Run.ofExcept result ∧ s.Answers isFirst c result

variable {isFirst : Bool} {found : CandidateSet} {x : EvalError}

theorem answered_error : s.Answered isFirst c (Run.ofExcept (.error x)) := ⟨.error x, rfl, trivial⟩

theorem answered_exact {events : EventSet} (hdrawn : EventSet.DrawnFrom s.holder.events events)
    (hsettles : s.Settles c fun e => e ∈ events) : s.Answered isFirst c (pure (.exact events)) :=
  ⟨.ok (.exact events), rfl, fun _ => rfl, hdrawn, _, hsettles, fun _ => Iff.rfl⟩

/-- Candidates answer a condition as they are on inner nodes, and after a check by its verifier on
outermost nodes. -/
theorem answered_verify (hs : s.holder.Consistent) (hc : c.isStateless = true)
    (hproper : found.Proper s.holder.events) (hsettles : s.Settles c T) (hcovers : found.Covers T) :
    s.Answered isFirst c (s.verify found (if isFirst then some c else none)) := by
  cases isFirst with
  | false =>
      have hverify : s.verify found none = pure found := by cases found <;> rfl
      exact ⟨.ok found, hverify, nofun, hproper, T, hsettles, hcovers⟩
  | true =>
      -- What is left to do is the same for a superset and for all stored events.
      have hfilter (events : EventSet) (hdrawn : EventSet.DrawnFrom s.holder.events events)
          (hsuperset : ∀ e, T e → e ∈ events) :
          s.Answered true c (do return .exact (← s.filter c events)) := by
        rw [filter_eq hc]
        cases hpassing : Run.passing (s.outcome c) events with
        | error x => exact answered_error
        | ok passed =>
            have hmem := Run.mem_passing hpassing
            refine ⟨.ok (.exact passed), rfl, fun _ => rfl, ?_, T, hsettles, fun e => ?_⟩
            · rw [Run.passing_eq_filter hpassing]
              exact hdrawn.filter _
            · rw [hmem]
              constructor
              · rintro ⟨he, htrue⟩
                exact (hsettles.decided e (hdrawn.subset e he) true htrue).2 rfl
              · intro he
                obtain ⟨b, hb⟩ := Run.exists_passing_iff.1 ⟨passed, hpassing⟩ e (hsuperset e he)
                obtain rfl := (hsettles.decided e (hsettles.stored e he) b hb).1 he
                exact ⟨hsuperset e he, hb⟩
      cases found with
      | all => exact hfilter s.holder.events hs.drawn hsettles.stored
      | exact events =>
          exact ⟨.ok (.exact events), rfl, fun _ => rfl, hproper, T, hsettles, hcovers⟩
      | superset events => exact hfilter events hproper hcovers

/-! ### The kinds of nodes -/

open Plan

-- The equations of the search are derived once for all kinds of nodes.
attribute [local simp] findCandidates

variable {name : String} {position : Nat} {op : Comparison} {v : Code}
  {indexed left right inner : Plan}

theorem Settles.none (h : ∀ e ∈ s.holder.events, ∀ b, s.outcome c e = .ok b → b = false) :
    s.Settles c fun e => e ∈ ([] : EventSet) where
  stored e he := by cases he
  decided e he b hb := by simp [h e he b hb]

theorem answered_gate (hs : s.holder.Consistent) (hc : c.isStateless = true)
    (hignores : c.ignores s.storeSlot = true) :
    s.Answered isFirst c ((Plan.gate c).findCandidates s) := by
  simp only [findCandidates, Code.test_eq_decision hc]
  cases hopen : c.decision s.rows s.matching with
  | error x => exact answered_error
  | ok b =>
      have houtcome (e : StoredEvent) : s.outcome c e = .ok b := by
        rw [outcome_of_ignores hignores, hopen]
      cases b with
      | true => exact answered_exact hs.drawn ⟨fun _ he => he, fun e he b hb => by simp_all⟩
      | false => exact answered_exact (.empty _) (.none fun e he b hb => by simp_all)

/-- A boolean attribute that is not looked up is read from every event, which never fails. -/
theorem answered_scan_read {type : AttributeType} (hs : s.holder.Consistent) :
    s.Answered isFirst (.read s.storeSlot position type)
      ((Plan.scan (some (.read s.storeSlot position type))).findCandidates s) := by
  obtain ⟨result, hrun, h⟩ : s.Answered true (.read s.storeSlot position type)
      (s.verify .all (some (.read s.storeSlot position type))) :=
    answered_verify hs rfl trivial (settles_outcome s _) trivial
  refine ⟨result, hrun, ?_⟩
  cases result with
  | ok found => exact ⟨fun _ => h.1 rfl, h.2⟩
  | error x => trivial

/-- A lookup finds the events whose attribute compares with the probe as the condition asks, and
none for a null probe. -/
theorem answered_lookup (hs : s.holder.Consistent)
    (hposition : s.holder.definition.position name = some position) (hv : v.isStateless = true)
    (hholds : ∀ probe, v.value s.rows s.matching = .ok probe →
      ∀ e, s.outcome c e = .ok (op.holds (e.event.get position) probe)) :
    s.Answered isFirst c ((Plan.compare name op position v).findCandidates s) := by
  simp only [findCandidates, Code.run_eq_value s.rows v s.matching hv]
  cases hprobe : v.value s.rows s.matching with
  | error x => exact answered_error
  | ok probe =>
      have houtcome := hholds probe hprobe
      rw [Run.ofExcept_ok_bind]
      split
      · rename_i hnull
        refine answered_exact (.empty _) (.none fun e he b hb => ?_)
        rw [houtcome, Comparison.holds_null_right op hnull] at hb
        exact (Except.ok.inj hb).symm
      · -- With a probe that is not null the condition never fails, so its events settle it.
        rename_i hnull
        have hsettles (events : EventSet) (hmem : ∀ e, e ∈ events ↔
            e ∈ s.holder.events ∧ op.holds (e.event.get position) probe = true) :
            s.Settles c fun e => e ∈ events := by
          refine ⟨fun e he => ((hmem e).1 he).1, fun e he b hb => ?_⟩
          rw [houtcome] at hb
          rw [hmem, Except.ok.inj hb]
          simp [he]
        split
        · exact answered_exact (hs.drawn.filter _) (hsettles _ fun e => by rw [List.mem_filter])
        · refine answered_exact (hs.drawn_findEvents hposition op probe) (hsettles _ fun e => ?_)
          rw [hs.mem_findEvents hposition, Comparison.probes_eq_holds op (by simpa using hnull)]

theorem answered_isNull {type : AttributeType} (hs : s.holder.Consistent)
    (hposition : s.holder.definition.position name = some position) :
    s.Answered isFirst (.isNull (.read s.storeSlot position type))
      ((Plan.isNull name).findCandidates s) := by
  refine answered_exact (hs.drawn_findEvents hposition .equal .null)
    ⟨fun e he => ?_, fun e he b hb => ?_⟩
  · exact ((hs.mem_findEvents hposition .equal .null e).1 he).1
  · rw [outcome_isNull_read] at hb
    rw [hs.mem_findEvents hposition, Comparison.equal_probes_null, Except.ok.inj hb]
    simp [he]

/-- A gate on the left of a conjunction. -/
theorem answered_gatedLeft (hl : l.isStateless = true) (hignores : l.ignores s.storeSlot = true)
    (h : s.Answered isFirst r (inner.findCandidates s)) :
    s.Answered isFirst (.and l r) ((Plan.gated l inner).findCandidates s) := by
  simp only [findCandidates, Code.test_eq_decision hl]
  cases hopen : l.decision s.rows s.matching with
  | error x => exact answered_error
  | ok b =>
      have houtcome (e : StoredEvent) :
          s.outcome (.and l r) e = if b then s.outcome r e else .ok false := by
        rw [outcome_and, outcome_of_ignores hignores, hopen]
        rfl
      cases b with
      | false => exact answered_exact (.empty _) (.none fun e he b hb => by simp_all)
      | true =>
          obtain ⟨result, hrun, hresult⟩ := h
          refine ⟨result, hrun, ?_⟩
          cases result with
          | error x => trivial
          | ok found =>
              obtain ⟨hexact, hproper, T, hsettles, hcovers⟩ := hresult
              refine ⟨hexact, hproper, T, ⟨hsettles.stored, fun e he b hb => ?_⟩, hcovers⟩
              exact hsettles.decided e he b (by simpa [houtcome] using hb)

/-- A gate on the right of a conjunction, which is tested first all the same. -/
theorem answered_gatedRight (hr : r.isStateless = true) (hignores : r.ignores s.storeSlot = true)
    (h : s.Answered isFirst l (inner.findCandidates s)) :
    s.Answered isFirst (.and l r) ((Plan.gated r inner).findCandidates s) := by
  simp only [findCandidates, Code.test_eq_decision hr]
  cases hopen : r.decision s.rows s.matching with
  | error x => exact answered_error
  | ok b =>
      have hgate : s.Settles r fun e => e ∈ s.holder.events ∧ b = true :=
        ⟨fun _ he => he.1, fun e he b' hb' => by simp_all [outcome_of_ignores hignores]⟩
      cases b with
      | false =>
          refine answered_exact (.empty _) (.none fun e he b hb => ?_)
          rw [outcome_and, Run.bind_eq_ok] at hb
          obtain ⟨left, -, hb⟩ := hb
          cases left
          · exact (Except.ok.inj hb).symm
          · rw [if_pos rfl, outcome_of_ignores hignores, hopen] at hb
            exact (Except.ok.inj hb).symm
      | true =>
          obtain ⟨result, hrun, hresult⟩ := h
          refine ⟨result, hrun, ?_⟩
          cases result with
          | error x => trivial
          | ok found =>
              obtain ⟨hexact, hproper, T, hsettles, hcovers⟩ := hresult
              have hsame : (fun e => T e ∧ e ∈ s.holder.events ∧ true = true) = T := by
                funext e
                simpa using hsettles.stored e
              have hboth := hsettles.and hgate
              rw [hsame] at hboth
              exact ⟨hexact, hproper, T, hboth, hcovers⟩

/-- Both sides of a conjunction from an index. The right side is not searched where the left side
has no candidates. -/
theorem answered_both (hs : s.holder.Consistent) (hc : (Code.and l r).isStateless = true)
    (hl : s.Answered false l (left.findCandidates s))
    (hr : s.Answered false r (right.findCandidates s)) :
    s.Answered isFirst (.and l r)
      ((Plan.both left right (if isFirst then some (.and l r) else none)).findCandidates s) := by
  obtain ⟨leftResult, hleft, hl⟩ := hl
  obtain ⟨rightResult, hright, hr⟩ := hr
  simp only [findCandidates, hleft, hright]
  cases leftResult with
  | error x => exact answered_error
  | ok leftFound =>
      obtain ⟨-, hlproper, T, hT, hlcovers⟩ := hl
      rw [Run.ofExcept_ok_bind]
      split
      · -- Nothing satisfies the left side, so nothing satisfies the conjunction.
        rename_i hempty
        obtain rfl := CandidateSet.isExactlyEmpty_iff.1 hempty
        have hnone (e : StoredEvent) : ¬T e := fun he => by cases (hlcovers e).2 he
        exact answered_verify hs hc hlproper (hT.narrow fun e he => (outcome_and_true he).1)
          fun e => iff_of_false List.not_mem_nil fun he => hnone e he.1
      · cases rightResult with
        | error x => exact answered_error
        | ok rightFound =>
            obtain ⟨-, hrproper, U, hU, hrcovers⟩ := hr
            exact answered_verify hs hc (hlproper.intersect hrproper) (hT.and hU)
              (CandidateSet.covers_intersect hs.identified hlproper hrproper hlcovers hrcovers)

/-- One side of a conjunction from an index. What the index finds is not known to be exact. -/
theorem answered_narrowed {part : Code} (hs : s.holder.Consistent) (hc : c.isStateless = true)
    (himplies : ∀ e, s.outcome c e = .ok true → s.outcome part e = .ok true)
    (h : s.Answered false part (indexed.findCandidates s)) :
    s.Answered isFirst c
      ((Plan.narrowed indexed (if isFirst then some c else none)).findCandidates s) := by
  obtain ⟨result, hrun, h⟩ := h
  simp only [findCandidates, hrun]
  cases result with
  | error x => exact answered_error
  | ok found =>
      obtain ⟨-, hproper, T, hT, hcovers⟩ := h
      rw [Run.ofExcept_ok_bind]
      split
      · rename_i hempty
        obtain rfl := CandidateSet.isExactlyEmpty_iff.1 hempty
        have hnone (e : StoredEvent) : ¬T e := fun he => by cases (hcovers e).2 he
        refine answered_exact (.empty _) (.none fun e he b hb => Bool.eq_false_iff.2 ?_)
        rintro rfl
        exact hnone e ((hT.decided e he true (himplies e hb)).2 rfl)
      · -- The other side of the conjunction is left to the verifier.
        refine answered_verify hs hc hproper.loosen (hT.narrow himplies) ?_
        cases found with
        | all => trivial
        | exact events => exact fun e he => (hcovers e).2 he.1
        | superset events => exact fun e he => hcovers e he.1

theorem answered_either (hs : s.holder.Consistent) (hc : (Code.or l r).isStateless = true)
    (hl : s.Answered isFirst l (left.findCandidates s))
    (hr : s.Answered isFirst r (right.findCandidates s)) :
    s.Answered isFirst (.or l r)
      ((Plan.either left right (if isFirst then some (.or l r) else none)).findCandidates s) := by
  obtain ⟨leftResult, hleft, hl⟩ := hl
  obtain ⟨rightResult, hright, hr⟩ := hr
  simp only [findCandidates, hleft, hright]
  cases leftResult with
  | error x => exact answered_error
  | ok leftFound =>
      obtain ⟨-, hlproper, T, hT, hlcovers⟩ := hl
      rw [Run.ofExcept_ok_bind]
      cases rightResult with
      | error x => exact answered_error
      | ok rightFound =>
          obtain ⟨-, hrproper, U, hU, hrcovers⟩ := hr
          exact answered_verify hs hc (hlproper.union hs.identified hrproper) (hT.or hU)
            (CandidateSet.covers_union hs.identified hlproper hrproper hlcovers hrcovers)

theorem answered_complement (hs : s.holder.Consistent) (hc : (Code.not c).isStateless = true)
    (h : s.Answered isFirst c (inner.findCandidates s)) :
    s.Answered isFirst (.not c)
      ((Plan.complement inner (if isFirst then some (.not c) else none)).findCandidates s) := by
  obtain ⟨result, hrun, h⟩ := h
  simp only [findCandidates, hrun]
  cases result with
  | error x => exact answered_error
  | ok found =>
      obtain ⟨-, hproper, T, hT, hcovers⟩ := h
      exact answered_verify hs hc (.negate hs.drawn found) hT.not
        (CandidateSet.covers_negate hs.identified hs.drawn hproper hcovers)

end Search

namespace Plan

open Search

variable {context : Context} {capability : Capability} {info : MatchLayout} {n m : Nat}
  {isFirst : Bool} {p : Plan}

/-- The plan of a classified condition answers for its code. -/
theorem answered_of_build {s : Search} (hs : s.holder.Consistent)
    (hslot : s.storeSlot = info.storeSlot)
    (hcapability : capability.definition = s.holder.definition) {cl : Classified} {c : Code}
    (hcl : Describes context capability info cl c)
    (hp : build context capability info cl isFirst n = .ok (p, m)) :
    s.Answered isFirst c (p.findCandidates s) := by
  replace hp := built_of_build hp
  induction hp generalizing c with
  | gate tested =>
      cases hcl with
      | independent compiles ignores =>
          rw [condition_eq compiles tested]
          exact answered_gate hs compiles.stateless (hslot ▸ ignores)
  | scan verified =>
      cases hcl with
      | exhaustive compiles _ =>
          rw [verifierFor_eq compiles verified]
          exact answered_verify hs compiles.stateless trivial (settles_outcome s _) trivial
  | truth hposition =>
      cases hcl with
      | named compiles found =>
          cases found.symm.trans hposition
          rw [← hslot]
          refine answered_lookup hs (hcapability ▸ found) rfl fun probe hprobe e => ?_
          cases hprobe
          rw [outcome_read, Comparison.equal_holds_true]
  | readAll tested =>
      cases hcl with
      | named compiles _ =>
          rw [condition_eq compiles tested, ← hslot]
          exact answered_scan_read hs
  | lookup hv hposition =>
      cases hcl with
      | lookup compiles probe ignores found =>
          cases found.symm.trans hposition
          rw [← hslot] at ignores ⊢
          rw [probe.code_eq hv]
          refine answered_lookup hs (hcapability ▸ found) probe.stateless fun value hvalue e => ?_
          exact outcome_compare (value_read s _ _ e) (by rw [value_of_ignores ignores, hvalue])
      | mirrored compiles probe ignores found =>
          cases found.symm.trans hposition
          rw [← hslot] at ignores ⊢
          rw [probe.code_eq hv]
          refine answered_lookup hs (hcapability ▸ found) probe.stateless fun value hvalue e => ?_
          rw [Comparison.holds_converse]
          exact outcome_compare (by rw [value_of_ignores ignores, hvalue]) (value_read s _ _ e)
  | isNull =>
      cases hcl with
      | isNull compiles found =>
          rw [← hslot]
          exact answered_isNull hs (hcapability ▸ found)
  | gatedLeft independent tested _ ih =>
      cases hcl with
      | and compiles _ left right =>
          rw [condition_eq left.compiles tested]
          exact answered_gatedLeft left.compiles.stateless
            (hslot ▸ left.ignores_iff.2 independent) (ih right)
  | gatedRight independent tested _ ih =>
      cases hcl with
      | and compiles _ left right =>
          rw [condition_eq right.compiles tested]
          exact answered_gatedRight right.compiles.stateless
            (hslot ▸ right.ignores_iff.2 independent) (ih left)
  | both _ _ _ _ verified ihl ihr =>
      cases hcl with
      | and compiles _ left right =>
          rw [verifierFor_eq compiles verified]
          exact answered_both hs compiles.stateless (ihl left) (ihr right)
  | narrowedLeft _ _ verified ih =>
      cases hcl with
      | and compiles _ left right =>
          rw [verifierFor_eq compiles verified]
          exact answered_narrowed hs compiles.stateless (fun e he => (outcome_and_true he).1)
            (ih left)
  | narrowedRight _ _ verified ih =>
      cases hcl with
      | and compiles _ left right =>
          rw [verifierFor_eq compiles verified]
          exact answered_narrowed hs compiles.stateless (fun e he => (outcome_and_true he).2)
            (ih right)
  | either _ _ verified ihl ihr =>
      cases hcl with
      | or compiles _ left right =>
          rw [verifierFor_eq compiles verified]
          exact answered_either hs compiles.stateless (ihl left) (ihr right)
  | complement _ verified ih =>
      cases hcl with
      | not compiles _ operand =>
          rw [verifierFor_eq compiles verified]
          exact answered_complement hs compiles.stateless (ih operand)

end Plan

end EventQuery
