import EventQuery.Lookup.Plan
import EventQuery.Proofs.Eval.Run
import EventQuery.Proofs.Lookup.Candidates
import EventQuery.Proofs.Lookup.Soundness

/-!
Candidate sets as approximations. Every combination of candidate sets that approximate two sets of
stored events approximates the combination of the two sets, and a condition that tells the events of
a set from the others makes an approximation of the set exact.
-/

namespace EventQuery

namespace CandidateSet

/-- A candidate set over the stored events covers a set of them. -/
structure Approximates (stored : EventSet) (x : CandidateSet) (T : StoredEvent → Prop) :
    Prop where
  proper : x.Proper stored
  within : ∀ e, T e → e ∈ stored
  covers : x.Covers T

variable {stored : EventSet} {x y : CandidateSet} {T U : StoredEvent → Prop}

theorem Approximates.intersect (hid : EventSet.Identified stored) (hx : x.Approximates stored T)
    (hy : y.Approximates stored U) :
    (x.intersect y).Approximates stored fun e => T e ∧ U e where
  proper := hx.proper.intersect hy.proper
  within e he := hx.within e he.1
  covers := covers_intersect hid hx.proper hy.proper hx.covers hy.covers

theorem Approximates.union (hid : EventSet.Identified stored) (hx : x.Approximates stored T)
    (hy : y.Approximates stored U) : (x.union y).Approximates stored fun e => T e ∨ U e where
  proper := hx.proper.union hid hy.proper
  within e he := he.elim (hx.within e) (hy.within e)
  covers := covers_union hid hx.proper hy.proper hx.covers hy.covers

theorem Approximates.negate (hid : EventSet.Identified stored)
    (hstored : EventSet.DrawnFrom stored stored) (hx : x.Approximates stored T) :
    (x.negate stored).Approximates stored fun e => e ∈ stored ∧ ¬T e where
  proper := .negate hstored x
  within _ he := he.1
  covers := covers_negate hid hstored hx.proper hx.covers

theorem Approximates.loosen (hx : x.Approximates stored T) : x.loosen.Approximates stored T where
  proper := hx.proper.loosen
  within := hx.within
  covers := by
    cases x with
    | exact events => exact fun e he => (hx.covers e).2 he
    | all | superset events => exact hx.covers

theorem isExact_combined (hx : x.isExact = true) (hy : y.isExact = true) :
    (x.intersect y).isExact = true ∧ (x.union y).isExact = true := by
  cases x <;> cases hx
  cases y <;> cases hy
  exact ⟨rfl, rfl⟩

end CandidateSet

namespace Search

open CandidateSet

variable {s : Search} {x y : CandidateSet} {condition : Code} {T U : StoredEvent → Prop}
  {m : Memory}

/-- The memory after a condition has been tested on some stored events, one after another. -/
def memoryAfter (s : Search) (condition : Code) (tested : EventSet) (m : Memory) : Memory :=
  tested.foldl (fun m e => (condition.test s.rows (s.candidate e) m).2) m

theorem memoryAfter_snoc (tested : EventSet) (e : StoredEvent) :
    s.memoryAfter condition (tested ++ [e]) m =
      (condition.test s.rows (s.candidate e) (s.memoryAfter condition tested m)).2 := by
  rw [memoryAfter, List.foldl_append]
  rfl

/-- A condition succeeds on every stored event and accepts the events of a set and no others,
whichever other stored events it has been tested on before. -/
def Recognizes (s : Search) (condition : Code) (m : Memory) (T : StoredEvent → Prop) : Prop :=
  ∀ tested e, EventSet.DrawnFrom s.holder.events (tested ++ [e]) →
    ∃ accepted, (condition.test s.rows (s.candidate e) (s.memoryAfter condition tested m)).1 =
      .ok accepted ∧ (accepted = true ↔ T e)

/-- A filter by a condition that recognizes a set keeps the events of the set. -/
theorem Recognizes.filter (h : s.Recognizes condition m T) (tested : EventSet) {events : EventSet}
    (hdrawn : EventSet.DrawnFrom s.holder.events (tested ++ events)) :
    ∃ found m', s.filter condition events (s.memoryAfter condition tested m) = (.ok found, m') ∧
      ∀ e, e ∈ found ↔ e ∈ events ∧ T e := by
  -- The events before the one that is tested next have been tested already.
  induction events generalizing tested with
  | nil => exact ⟨[], _, rfl, by simp⟩
  | cons e rest ih =>
      rw [List.append_cons] at hdrawn
      obtain ⟨found, m', hrest, hfound⟩ := ih (tested ++ [e]) hdrawn
      have hfirst : EventSet.DrawnFrom s.holder.events (tested ++ [e]) :=
        ⟨(List.nodup_append.1 hdrawn.nodup).1,
          fun x hx => hdrawn.subset x (List.mem_append_left _ hx)⟩
      obtain ⟨accepted, htest, haccepted⟩ := h tested e hfirst
      have htested : condition.test s.rows (s.candidate e) (s.memoryAfter condition tested m) =
          (.ok accepted, s.memoryAfter condition (tested ++ [e]) m) :=
        Prod.ext htest (memoryAfter_snoc tested e).symm
      refine ⟨if accepted then e :: found else found, m', ?_, fun x => ?_⟩
      · rw [Search.filter, Run.filterM, Run.bind_of_ok htested]
        exact Run.bind_of_ok hrest
      · cases accepted with
        | true =>
            have he : T e := haccepted.1 rfl
            simp only [if_true, List.mem_cons, hfound]
            grind
        | false =>
            have he : ¬T e := fun hT => Bool.false_ne_true (haccepted.2 hT)
            simp only [Bool.false_eq_true, if_false, List.mem_cons, hfound]
            grind

/-- A check by a condition that recognizes a set makes an approximation of the set exact. -/
theorem Recognizes.verify (h : s.Recognizes condition m T)
    (hstored : EventSet.DrawnFrom s.holder.events s.holder.events)
    (hx : x.Approximates s.holder.events T) :
    ∃ found m', s.verify x (some condition) m = (.ok (.exact found), m') ∧
      (CandidateSet.exact found).Approximates s.holder.events T := by
  have hfilter (events : EventSet) (hdrawn : EventSet.DrawnFrom s.holder.events events)
      (hsuperset : ∀ e, T e → e ∈ events) :
      ∃ found m', (do return .exact (← s.filter condition events) : Run EvalError CandidateSet) m =
        (.ok (.exact found), m') ∧ (CandidateSet.exact found).Approximates s.holder.events T := by
    obtain ⟨found, m', hrun, hfound⟩ := h.filter [] hdrawn
    refine ⟨found, m', Run.bind_of_ok hrun, ?_, hx.within, fun e => ?_⟩
    · have hsublist := Run.sublist_filterM hrun
      exact ⟨hdrawn.nodup.sublist hsublist, fun e he => hdrawn.subset e (hsublist.subset he)⟩
    · rw [hfound]
      exact ⟨fun he => he.2, fun he => ⟨hsuperset e he, he⟩⟩
  cases x with
  | all => exact hfilter s.holder.events hstored hx.within
  | exact events => exact ⟨events, m, rfl, hx⟩
  | superset events => exact hfilter events hx.proper hx.covers

/-- A condition without aggregates recognizes the set of the events that satisfy it, where it is
decided for every stored event. -/
theorem recognizes_of_outcome (hc : condition.isStateless = true)
    (h : ∀ e ∈ s.holder.events, ∃ b, s.outcome condition e = .ok b ∧ (b = true ↔ T e)) :
    s.Recognizes condition m T := by
  intro tested e hdrawn
  obtain ⟨b, hb, hT⟩ := h e (hdrawn.subset e (by simp))
  refine ⟨b, ?_, hT⟩
  rw [Code.test_eq_decision hc, Run.run_ofExcept]
  exact hb

/-- Candidate sets are sound approximations. Of two candidate sets over the events of a store that
approximate two sets of them, the candidates of a conjunction, a disjunction and a negation
approximate the intersection, the union and the complement; forgetting that an answer is exact keeps
the approximation; a check by a condition that recognizes the set gives exactly the set. Exact
answers have exact conjunctions and disjunctions. -/
theorem candidates_sound {d : Definition} {primaryKey : Option String} {indexes : List String}
    (hreachable : Holder.Reachable d primaryKey indexes s.holder)
    (hx : x.Approximates s.holder.events T) (hy : y.Approximates s.holder.events U) :
    (x.intersect y).Approximates s.holder.events (fun e => T e ∧ U e) ∧
      (x.union y).Approximates s.holder.events (fun e => T e ∨ U e) ∧
      (x.negate s.holder.events).Approximates s.holder.events
        (fun e => e ∈ s.holder.events ∧ ¬T e) ∧
      x.loosen.Approximates s.holder.events T ∧
      (∀ condition m, s.Recognizes condition m T →
        ∃ found m', s.verify x (some condition) m = (.ok (.exact found), m') ∧
          (CandidateSet.exact found).Approximates s.holder.events T) ∧
      (x.isExact = true → y.isExact = true →
        (x.intersect y).isExact = true ∧ (x.union y).isExact = true) := by
  have hs := hreachable.consistent
  have hid := hs.identified
  refine ⟨hx.intersect hid hy, hx.union hid hy, hx.negate hid hs.drawn, hx.loosen, ?_,
    isExact_combined⟩
  intro condition m hrecognizes
  exact hrecognizes.verify hs.drawn hx

/-! ### Two quotes -/

namespace TwoQuotes

open Operator

def dear : StoredEvent := ⟨0, .current 0 [.string "A", .int 5]⟩

def cheap : StoredEvent := ⟨1, .current 0 [.string "B", .int 2]⟩

def search : Search := ⟨fun _ => [], Quotes.store, 1, Quotes.order 0 0⟩

/-- The condition `t.price > 3`. -/
def isDear : Code := .compare .greater (.read 1 1 .int) (.const (.int 3))

theorem events_search : search.holder.events = [dear, cheap] := rfl

theorem approximates_dear :
    (CandidateSet.superset [dear, cheap]).Approximates search.holder.events (· = dear) where
  proper := ⟨by decide, fun _ he => he⟩
  within := by simp [events_search]
  covers := by simp [Covers]

theorem approximates_cheap :
    (CandidateSet.exact [cheap]).Approximates search.holder.events (· = cheap) where
  proper := ⟨by decide, by simp [events_search]⟩
  within := by simp [events_search]
  covers := by simp [Covers]

theorem recognizes_dear (m : Memory) : search.Recognizes isDear m (· = dear) := by
  refine recognizes_of_outcome rfl fun e he => ?_
  rw [events_search] at he
  rcases List.mem_pair.1 he with rfl | rfl
  · exact ⟨true, by decide +kernel, by simp⟩
  · exact ⟨false, by decide +kernel, by decide⟩

end TwoQuotes

open TwoQuotes

/-- Of two quotes that may be dear a check leaves the one that is, and together with the cheap one
these are all. -/
theorem candidates_sound_quotes :
    Holder.Reachable Operator.Quotes.definition none ["price"] search.holder ∧
      search.Recognizes isDear (.fresh 0) (· = dear) ∧
      (∃ found m', search.verify (.superset [dear, cheap]) (some isDear) (.fresh 0) =
          (.ok (.exact found), m') ∧
        (CandidateSet.exact found).Approximates search.holder.events (· = dear)) ∧
      ((CandidateSet.superset [dear, cheap]).union (.exact [cheap])).Approximates
        search.holder.events (fun e => e = dear ∨ e = cheap) := by
  obtain ⟨-, hunion, -, -, hverify, -⟩ := candidates_sound (s := search)
    Operator.Quotes.reachable_store approximates_dear approximates_cheap
  exact ⟨Operator.Quotes.reachable_store, recognizes_dear _, hverify isDear _ (recognizes_dear _),
    hunion⟩

end Search

end EventQuery
