import EventQuery.Proofs.Eval.Run
import EventQuery.Proofs.Lookup.Building
import EventQuery.Proofs.Lookup.Candidates
import EventQuery.Proofs.Store.Removal

/-!
The shortcuts of plans. Some nodes answer whether the store has a match, or remove the matches,
without listing them. For the plan of a whole condition they give what the list of matches gives,
and they fail as it does.
-/

namespace EventQuery

open Allot
open Run hiding bind_eq_ok

namespace Search

variable {s : Search} {m m' : Memory} {candidates found : CandidateSet}

/-- A verifier makes candidates exact. -/
theorem exact_of_verify {condition : Code}
    (h : s.verify candidates (some condition) m = (.ok found, m')) :
    ∃ events, found = .exact events := by
  cases candidates with
  | exact events =>
      cases h
      exact ⟨events, rfl⟩
  | all | superset =>
      obtain ⟨events, _, -, h⟩ := of_run_bind h
      cases h
      exact ⟨events, rfl⟩

/-- A verifier lists nothing that is not stored. -/
theorem proper_of_verify {verifier : Option Code} (hs : s.holder.Consistent)
    (hproper : candidates.Proper s.holder.events)
    (h : s.verify candidates verifier m = (.ok found, m')) : found.Proper s.holder.events := by
  have hfilter {condition : Code} {events : EventSet}
      (hdrawn : EventSet.DrawnFrom s.holder.events events)
      (h : (do return .exact (← s.filter condition events) : Run EvalError CandidateSet) m =
        (.ok found, m')) : found.Proper s.holder.events := by
    obtain ⟨passed, _, hpassed, h⟩ := of_run_bind h
    cases h
    have hsublist := sublist_filterM hpassed
    exact ⟨hdrawn.nodup.sublist hsublist, fun e he => hdrawn.subset e (hsublist.subset he)⟩
  cases verifier with
  | none =>
      have hsame : s.verify candidates none m = (.ok candidates, m) := by cases candidates <;> rfl
      rw [hsame] at h
      cases h
      exact hproper
  | some condition =>
      cases candidates with
      | exact events =>
          cases h
          exact hproper
      | all => exact hfilter hs.drawn h
      | superset events => exact hfilter hproper h

end Search

namespace Plan

variable {s : Search} {p : Plan} {m m' : Memory} {found : CandidateSet}

/-- Every outermost node of the plan answers exactly by itself or has a verifier. -/
def isVerified : Plan → Bool
  | .compare .. | .isNull _ | .gate _ => true
  | .gated _ inner => inner.isVerified
  | .both _ _ verifier | .narrowed _ verifier | .either _ _ verifier | .complement _ verifier
  | .scan verifier => verifier.isSome

section Build

variable {context : Context} {c : Capability} {info : MatchLayout} {cl : Classified} {e : Expr}
  {isFirst : Bool} {n k : Nat}

theorem isSome_of_verifierFor {verifier : Option Code} (hfirst : isFirst = true)
    (h : verifierFor context info isFirst e n = .ok (verifier, k)) : verifier.isSome = true := by
  subst hfirst
  obtain ⟨condition, -, rfl⟩ := verifierFor_outermost.1 h
  rfl

/-- An outermost node is verified, and the inner node behind a gate is outermost too. -/
theorem Built.isVerified (h : Built context c info cl isFirst n p k) (hfirst : isFirst = true) :
    p.isVerified = true := by
  induction h with
  | gate | truth | readAll | lookup | isNull => rfl
  | gatedLeft _ _ _ ih | gatedRight _ _ _ ih => exact ih hfirst
  | scan verified | both _ _ _ _ verified | narrowedLeft _ _ verified
  | narrowedRight _ _ verified | either _ _ verified | complement _ verified =>
      exact isSome_of_verifierFor hfirst verified

/-- The plan of a whole condition is verified. -/
theorem isVerified_of_build (h : build context c info cl true n = .ok (p, k)) :
    p.isVerified = true := (built_of_build h).isVerified rfl

end Build

/-- What a verified plan finds is exact. -/
theorem exact_of_findCandidates (hp : p.isVerified = true)
    (h : p.findCandidates s m = (.ok found, m')) : ∃ events, found = .exact events := by
  induction p generalizing m found with
  | compare name op position value =>
      obtain ⟨probe, _, -, h⟩ := of_run_bind h
      split at h
      · cases h
        exact ⟨_, rfl⟩
      · split at h <;> cases h <;> exact ⟨_, rfl⟩
  | isNull name =>
      cases h
      exact ⟨_, rfl⟩
  | gate condition =>
      obtain ⟨opened, _, -, h⟩ := of_run_bind h
      cases opened <;> cases h <;> exact ⟨_, rfl⟩
  | gated condition inner ih =>
      obtain ⟨opened, _, -, h⟩ := of_run_bind h
      cases opened
      · cases h
        exact ⟨_, rfl⟩
      · exact ih hp h
  | both left right verifier =>
      obtain ⟨condition, rfl⟩ := Option.isSome_iff_exists.1 hp
      obtain ⟨found, _, -, h⟩ := of_run_bind h
      split at h
      · exact Search.exact_of_verify h
      · obtain ⟨_, _, -, h⟩ := of_run_bind h
        exact Search.exact_of_verify h
  | narrowed indexed verifier =>
      obtain ⟨condition, rfl⟩ := Option.isSome_iff_exists.1 hp
      obtain ⟨candidates, _, -, h⟩ := of_run_bind h
      split at h
      · rename_i hempty
        cases h
        exact ⟨[], CandidateSet.isExactlyEmpty_iff.1 hempty⟩
      · exact Search.exact_of_verify h
  | either left right verifier =>
      obtain ⟨condition, rfl⟩ := Option.isSome_iff_exists.1 hp
      obtain ⟨_, _, -, h⟩ := of_run_bind h
      obtain ⟨_, _, -, h⟩ := of_run_bind h
      exact Search.exact_of_verify h
  | complement inner verifier =>
      obtain ⟨condition, rfl⟩ := Option.isSome_iff_exists.1 hp
      obtain ⟨_, _, -, h⟩ := of_run_bind h
      exact Search.exact_of_verify h
  | scan verifier =>
      obtain ⟨condition, rfl⟩ := Option.isSome_iff_exists.1 hp
      exact Search.exact_of_verify h

/-- The verifier of a node. -/
def verifier? : Plan → Option Code
  | .both _ _ verifier | .narrowed _ verifier | .either _ _ verifier | .complement _ verifier
  | .scan verifier => verifier
  | _ => none

/-- The candidates of a node before its verifier checks them. -/
def narrow (s : Search) : Plan → Run EvalError CandidateSet
  | .both l r _ => do
    let left ← l.findCandidates s
    if left.isExactlyEmpty then return left
    return left.intersect (← r.findCandidates s)
  | .narrowed indexed _ => do
    let candidates ← indexed.findCandidates s
    return if candidates.isExactlyEmpty then candidates else candidates.loosen
  | .either l r _ => do
    let left ← l.findCandidates s
    return left.union (← r.findCandidates s)
  | .complement inner _ => do return (← inner.findCandidates s).negate s.holder.events
  | .scan _ => pure .all
  | p => p.findCandidates s

/-- A node narrows the store, and then it checks what is left. -/
theorem findCandidates_eq (p : Plan) (s : Search) :
    p.findCandidates s = (do s.verify (← p.narrow s) p.verifier?) := by
  have hunverified (run : Run EvalError CandidateSet) :
      run = (do s.verify (← run) none) := by
    have hverify : (fun found => s.verify found none) = pure :=
      funext fun found => by cases found <;> rfl
    rw [hverify, bind_pure]
  cases p with
  | compare | isNull | gate | gated => exact hunverified _
  | both l r verifier =>
      simp only [findCandidates, narrow, verifier?, bind_assoc]
      congr 1
      funext left
      split
      · rw [pure_bind]
      · simp only [bind_assoc, pure_bind]
  | narrowed indexed verifier =>
      simp only [findCandidates, narrow, verifier?, bind_assoc, pure_bind]
      congr 1
      funext candidates
      split
      · rename_i hempty
        obtain rfl := CandidateSet.isExactlyEmpty_iff.1 hempty
        cases verifier <;> rfl
      · rfl
  | either | complement | scan =>
    simp only [findCandidates, narrow, verifier?, bind_assoc, pure_bind]

/-- A node that narrows the store to stored events finds stored events. -/
theorem proper_of_narrowed (hs : s.holder.Consistent)
    (hnarrow : ∀ {m m' found}, p.narrow s m = (.ok found, m') → found.Proper s.holder.events)
    (h : p.findCandidates s m = (.ok found, m')) : found.Proper s.holder.events := by
  rw [findCandidates_eq] at h
  obtain ⟨candidates, _, hcandidates, h⟩ := of_run_bind h
  exact Search.proper_of_verify hs (hnarrow hcandidates) h

/-- What a plan narrows the store to is stored, and nothing is listed twice. -/
theorem proper_of_narrow (hs : s.holder.Consistent) (h : p.narrow s m = (.ok found, m')) :
    found.Proper s.holder.events := by
  have hnone : (CandidateSet.exact []).Proper s.holder.events := ⟨.nil, nofun⟩
  have hlookup (name : String) (op : Comparison) (probe : Value) :
      (CandidateSet.exact (s.holder.findEvents name op probe)).Proper s.holder.events :=
    ⟨hs.nodup_findEvents name op probe, fun _ he => hs.findEvents_subset he⟩
  induction p generalizing m found m' with
  | compare name op position value =>
      obtain ⟨probe, _, -, h⟩ := of_run_bind h
      split at h
      · cases h
        exact hnone
      · split at h <;> cases h
        · exact hs.drawn.filter _
        · exact hlookup name op probe
  | isNull name =>
      cases h
      exact hlookup name .equal .null
  | gate condition =>
      obtain ⟨opened, _, -, h⟩ := of_run_bind h
      cases opened <;> cases h
      · exact hnone
      · exact hs.drawn
  | gated condition inner ih =>
      obtain ⟨opened, _, -, h⟩ := of_run_bind h
      cases opened
      · cases h
        exact hnone
      · exact proper_of_narrowed hs ih h
  | both left right verifier ihl ihr =>
      obtain ⟨x, _, hx, h⟩ := of_run_bind h
      split at h
      · cases h
        exact proper_of_narrowed hs ihl hx
      · obtain ⟨y, _, hy, h⟩ := of_run_bind h
        cases h
        exact (proper_of_narrowed hs ihl hx).intersect (proper_of_narrowed hs ihr hy)
  | narrowed indexed verifier ih =>
      obtain ⟨x, _, hx, h⟩ := of_run_bind h
      cases h
      split
      · exact proper_of_narrowed hs ih hx
      · exact (proper_of_narrowed hs ih hx).loosen
  | either left right verifier ihl ihr =>
      obtain ⟨x, _, hx, h⟩ := of_run_bind h
      obtain ⟨y, _, hy, h⟩ := of_run_bind h
      cases h
      exact (proper_of_narrowed hs ihl hx).union hs.identified (proper_of_narrowed hs ihr hy)
  | complement inner verifier ih =>
      obtain ⟨x, _, hx, h⟩ := of_run_bind h
      cases h
      exact .negate hs.drawn x
  | scan verifier =>
      cases h
      trivial

/-- What a plan finds is stored, and nothing is listed twice. -/
theorem proper_of_findCandidates (hs : s.holder.Consistent)
    (h : p.findCandidates s m = (.ok found, m')) : found.Proper s.holder.events :=
  proper_of_narrowed hs (proper_of_narrow hs) h

/-- What is found is stored, and nothing is found twice. -/
theorem drawn_of_find (hs : s.holder.Consistent) {events : EventSet}
    (h : p.find s m = (.ok events, m')) : EventSet.DrawnFrom s.holder.events events := by
  obtain ⟨found, _, hfound, h⟩ := of_run_bind h
  have hproper := proper_of_findCandidates hs (of_run_mapError hfound)
  cases found with
  | exact _ =>
      cases h
      exact hproper
  | all | superset _ => cases h

/-- A verified plan fails where the search for candidates does, and finds the candidates
otherwise. -/
theorem find_eq (hp : p.isVerified = true) (s : Search) :
    p.find s = do
      return match ← (p.findCandidates s).mapError .eval with
        | .exact events => events
        | .all | .superset _ => [] := by
  funext m
  unfold find
  rcases hrun : p.findCandidates s m with ⟨e | found, m'⟩
  · rw [bind_of_error (mapError_of_error _ hrun), bind_of_error (mapError_of_error _ hrun)]
  · obtain ⟨events, rfl⟩ := exact_of_findCandidates hp hrun
    rw [bind_of_ok (mapError_of_ok _ hrun), bind_of_ok (mapError_of_ok _ hrun)]

/-- Whether there is a match is answered as by listing the matches. -/
theorem contains_eq (hp : p.isVerified = true) :
    p.contains s = do return !(← p.find s).isEmpty := by
  induction p with
  | compare name op position value =>
      by_cases hop : op = .notEqual
      · simp only [contains, hop]
        rfl
      · rw [find_eq hp]
        simp only [contains, findCandidates, if_neg hop, mapError_bind, bind_assoc]
        congr 1
        funext probe
        rw [Holder.containsEvent_eq]
        cases probe.isNull <;> rfl
  | isNull name =>
      simp only [contains, Holder.containsEvent_eq]
      rfl
  | gate condition =>
      rw [find_eq hp]
      simp only [contains, findCandidates, mapError_bind, bind_assoc]
      congr 1
      funext opened
      cases opened with
      | false => rfl
      | true =>
          have hsize : decide (0 < s.holder.size) = !s.holder.events.isEmpty := by
            cases hevents : s.holder.events <;> simp [Holder.size, hevents]
          simp only [Bool.true_and, hsize]
          rfl
  | gated condition inner ih =>
      rw [find_eq hp]
      simp only [contains, findCandidates, mapError_bind, bind_assoc]
      congr 1
      funext opened
      cases opened with
      | false => rfl
      | true =>
          -- Behind an open gate stands a verified plan, which is asked in its own way.
          rw [if_pos rfl, if_pos rfl, ih hp, find_eq (p := inner) hp]
          simp only [bind_assoc]
  | both | narrowed | either | complement | scan => rfl

/-- The matches are removed as they are listed. -/
theorem delete_eq (p : Plan) (s : Search) :
    p.delete s = do return s.holder.deleteEvents (← p.find s) := by
  cases p with
  | compare name op position value =>
      by_cases hop : op = .notEqual
      · simp only [delete, hop]
        rfl
      · simp only [delete, find, findCandidates, if_neg hop, mapError_bind, bind_assoc]
        congr 1
        funext probe
        cases probe.isNull <;> rfl
  | _ => rfl

end Plan

end EventQuery
