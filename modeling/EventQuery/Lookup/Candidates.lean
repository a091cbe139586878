import EventQuery.Store.EventSet

/-!
What is known about the stored events that satisfy a part of a condition: nothing, exactly which
they are, or a set that has them all. `CandidateSet.Covers` says when such knowledge is true of a
set of events.
-/

namespace EventQuery

/-- Knowledge of the stored events that satisfy a condition. -/
inductive CandidateSet where
  | all
  | exact (events : EventSet)
  | superset (events : EventSet)
  deriving DecidableEq, Repr, Inhabited

namespace CandidateSet

/-- The knowledge is true of the events that satisfy `wanted`. -/
def Covers (s : CandidateSet) (wanted : StoredEvent → Prop) : Prop :=
  match s with
  | .all => True
  | .exact events => ∀ e, e ∈ events ↔ wanted e
  | .superset events => ∀ e, wanted e → e ∈ events

def isExact : CandidateSet → Bool
  | .exact _ => true
  | _ => false

def isExactlyEmpty : CandidateSet → Bool
  | .exact [] => true
  | _ => false

/-- The candidates of a conjunction. -/
def intersect : CandidateSet → CandidateSet → CandidateSet
  | .all, .all => .all
  | .all, .exact t | .all, .superset t => .superset t
  | .exact s, .all | .superset s, .all => .superset s
  | .exact s, .exact t => .exact (EventSet.intersect s t)
  | .exact s, .superset t | .superset s, .exact t | .superset s, .superset t =>
    .superset (EventSet.intersect s t)

/-- The candidates of a disjunction. -/
def union : CandidateSet → CandidateSet → CandidateSet
  | .all, _ | _, .all => .all
  | .exact s, .exact t => .exact (EventSet.union s t)
  | .exact s, .superset t | .superset s, .exact t | .superset s, .superset t =>
    .superset (EventSet.union s t)

/-- The candidates of a negation among the stored events; only an exact answer has a complement. -/
def negate (s : CandidateSet) (stored : EventSet) : CandidateSet :=
  match s with
  | .exact excluded => .exact (EventSet.difference stored excluded)
  | _ => .all

/-- Forget that an answer is exact. -/
def loosen : CandidateSet → CandidateSet
  | .exact events => .superset events
  | s => s

end CandidateSet

end EventQuery
