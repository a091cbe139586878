import EventQuery.Lookup.Candidates
import EventQuery.Proofs.Store.EventSet

/-!
Candidate sets as knowledge. If two candidate sets cover two sets of stored events, their
combinations cover the combinations of those sets.
-/

namespace EventQuery.CandidateSet

open EventSet

variable {stored : EventSet} {x y : CandidateSet} {T U : StoredEvent → Prop}

/-- The listed events are stored, and none is listed twice. -/
def Proper (stored : EventSet) : CandidateSet → Prop
  | .all => True
  | .exact events | .superset events => DrawnFrom stored events

theorem Proper.intersect (hx : x.Proper stored) (hy : y.Proper stored) :
    (x.intersect y).Proper stored := by
  cases x <;> cases y <;> simp only [Proper, CandidateSet.intersect] at *
  all_goals first | exact hx | exact hy | exact hx.intersect hy

theorem Proper.union (hid : Identified stored) (hx : x.Proper stored) (hy : y.Proper stored) :
    (x.union y).Proper stored := by
  cases x <;> cases y <;> simp only [Proper, CandidateSet.union] at *
  all_goals exact hx.union hid hy

theorem Proper.negate (hstored : DrawnFrom stored stored) (x : CandidateSet) :
    (x.negate stored).Proper stored := by
  cases x
  case exact events => exact hstored.filter _
  all_goals trivial

theorem Proper.loosen (hx : x.Proper stored) : x.loosen.Proper stored := by cases x <;> exact hx

theorem covers_intersect (hid : Identified stored) (hx : x.Proper stored) (hy : y.Proper stored)
    (hT : x.Covers T) (hU : y.Covers U) : (x.intersect y).Covers fun e => T e ∧ U e := by
  cases x <;> cases y <;> simp only [Covers, CandidateSet.intersect, Proper] at *
  case exact.exact =>
    intro e
    rw [mem_intersect hid hx hy, hT, hU]
  all_goals grind [mem_intersect]

theorem covers_union (hid : Identified stored) (hx : x.Proper stored) (hy : y.Proper stored)
    (hT : x.Covers T) (hU : y.Covers U) : (x.union y).Covers fun e => T e ∨ U e := by
  cases x <;> cases y <;> simp only [Covers, CandidateSet.union, Proper] at *
  case exact.exact =>
    intro e
    rw [mem_union hid hx hy, hT, hU]
  all_goals grind [mem_union]

theorem covers_negate (hid : Identified stored) (hstored : DrawnFrom stored stored)
    (hx : x.Proper stored) (hT : x.Covers T) :
    (x.negate stored).Covers fun e => e ∈ stored ∧ ¬T e := by
  cases x
  case exact events =>
    intro e
    rw [mem_difference hid hstored hx, hT]
  all_goals trivial

theorem isExactlyEmpty_iff : x.isExactlyEmpty = true ↔ x = .exact [] := by
  cases x
  case exact events => cases events <;> simp [isExactlyEmpty]
  all_goals simp [isExactlyEmpty]

end EventQuery.CandidateSet
