import EventQuery.Proofs.Lookup.Deletion
import EventQuery.Proofs.Lookup.Shortcuts

/-!
The three uses of an operator agree. Whether there is a match and how many matches a deletion
removes follow from the list of matches, and a deletion leaves exactly the events that are not
listed.
-/

namespace EventQuery

open Allot
open Run hiding bind_eq_ok

namespace Holder

/-- A store from which some events are gone: the others are listed in their order, and every lookup
gives what it gave before but for those events. -/
structure IsWithout (h left : Holder) (gone : EventSet) : Prop where
  events : left.events = h.events.filter fun e => decide (e ∉ gone)
  findEvents : ∀ name op probe,
    left.findEvents name op probe = (h.findEvents name op probe).filter fun e => decide (e ∉ gone)

variable {h : Holder} {gone : EventSet}

theorem Consistent.isWithout_deleteEvents (hc : h.Consistent)
    (hgone : EventSet.DrawnFrom h.events gone) :
    h.IsWithout (h.deleteEvents gone).2 gone := by
  have htest : ∀ e ∈ h.events, (!EventSet.has gone e) = decide (e ∉ gone) := fun e he => by
    rw [Bool.eq_iff_iff]
    simp [← EventSet.has_iff hc.identified hgone he]
  constructor
  · rw [Holder.events_deleteEvents]
    exact List.filter_congr htest
  · intro name op probe
    rw [hc.findEvents_deleteEvents]
    exact List.filter_congr fun e he => htest e (hc.findEvents_subset he)

theorem Consistent.fst_deleteEvents_of_drawn (hc : h.Consistent)
    (hgone : EventSet.DrawnFrom h.events gone) : (h.deleteEvents gone).1 = gone.length := by
  rw [hc.fst_deleteEvents_of_nodup (hgone.nodup_ids hc.identified), List.countP_eq_length]
  intro e he
  have hstored := hgone.subset e he
  exact (EventSet.has_iff hc.identified hc.drawn hstored).2 hstored

end Holder

namespace Operator

variable {context : Context} {info : MatchLayout} {e : Expr} {container : Container}
  {o : Operator} {rows : SourceRows} {matching : Frame} {m : Memory}

/-- The uses of an operator on a store agree with its list of matches, and fail as the listing
does. -/
structure AgreesOnStore (o : Operator) (rows : SourceRows) (matching : Frame) (d : Definition)
    (primaryKey : Option String) (indexes : List String) (h : Holder) (seen : Capability)
    (m : Memory) : Prop where
  found : ∀ {found m'}, o.find rows matching (.indexed h seen) m = (.ok found, m') →
    o.contains rows matching (.indexed h seen) m = (.ok !found.isEmpty, m') ∧
      ∃ left, o.delete rows matching (.indexed h seen) m =
          ((.ok found.length, .indexed left seen), m') ∧
        h.IsWithout left found ∧ Holder.Reachable d primaryKey indexes left
  failed : ∀ {x m'}, o.find rows matching (.indexed h seen) m = (.error x, m') →
    o.contains rows matching (.indexed h seen) m = (.error x, m') ∧
      o.delete rows matching (.indexed h seen) m = ((.error x, .indexed h seen), m')

/-- The uses of an operator on a container that it scans agree with the verdicts on the
candidates. -/
structure AgreesOnScan (o : Operator) (rows : SourceRows) (matching : Frame) (c : Container)
    (verdict : StoredEvent → Except LookupError Bool) (m : Memory) : Prop where
  found : ∀ {found m'}, o.find rows matching c m = (.ok found, m') →
    (∀ e ∈ c.events, ∃ passes, verdict e = .ok passes) ∧
      found = c.events.filter (fun e => isAcceptance (verdict e)) ∧
      o.contains rows matching c m = (.ok !found.isEmpty, m') ∧
      o.delete rows matching c m =
        ((.ok found.length, c.keep fun e => !isAcceptance (verdict e)), m')
  failed : ∀ {x m'}, o.find rows matching c m = (.error x, m') →
    ∃ e ∈ c.events, verdict e = .error x

theorem agreesOnStore {p : Plan} (hstrategy : o.strategy = .plan p) (hp : p.isVerified = true)
    {d : Definition} {primaryKey : Option String} {indexes : List String} {h : Holder}
    (hreachable : Holder.Reachable d primaryKey indexes h) (seen : Capability) (m : Memory) :
    o.AgreesOnStore rows matching d primaryKey indexes h seen m := by
  have hs := hreachable.consistent
  let s : Search := ⟨rows, h, o.storeSlot, matching⟩
  have hfind : o.find rows matching (.indexed h seen) = p.find s := by
    simp only [find, hstrategy, s]
  have hcontains : o.contains rows matching (.indexed h seen) = p.contains s := by
    simp only [contains, hstrategy, s]
  rw [Plan.contains_eq hp] at hcontains
  constructor
  · intro found m' hfound
    rw [hfind] at hfound
    have hdrawn : EventSet.DrawnFrom h.events found := Plan.drawn_of_find hs hfound
    have hdelete : p.delete s m = (.ok (found.length, (h.deleteEvents found).2), m') := by
      rw [Plan.delete_eq, bind_of_ok hfound, pure_apply, ← hs.fst_deleteEvents_of_drawn hdrawn]
    exact ⟨by rw [hcontains, bind_of_ok hfound]; rfl, (h.deleteEvents found).2,
      delete_plan_ok hstrategy hdelete, hs.isWithout_deleteEvents hdrawn,
      hreachable.deleteEvents found⟩
  · intro x m' hfailed
    rw [hfind] at hfailed
    have hdelete : p.delete s m = (.error x, m') := by
      rw [Plan.delete_eq, bind_of_error hfailed]
    exact ⟨by rw [hcontains, bind_of_error hfailed], delete_plan_error hstrategy hdelete⟩

/-- A scan without aggregates tests each candidate by a verdict of its own. -/
theorem agreesOnScan {kind : ContainerKind} {condition : Code}
    {verdict : StoredEvent → Except LookupError Bool}
    (hstrategy : o.strategy = .scan kind condition) (hscan : kind ≠ .indexed) {c : Container}
    (hkind : c.kind? = some kind)
    (haccepts : ∀ e, o.accepts rows matching condition e = ofExcept (verdict e)) (m : Memory) :
    o.AgreesOnScan rows matching c verdict m := by
  have hfind : o.find rows matching c = ofExcept (passing verdict c.events) := by
    simp only [find, hstrategy, if_pos hkind]
    exact filterM_ofExcept fun e _ => haccepts e
  have hcontains : o.contains rows matching c = ofExcept (anyPasses verdict c.events) := by
    simp only [contains, hstrategy, if_pos hkind]
    exact anyM_ofExcept fun e _ => haccepts e
  have hjudge : o.judge rows matching c m = (c.events.map verdict, m) := by
    simp only [judge, hstrategy, if_pos hkind]
    exact verdicts_ofExcept (fun e _ => haccepts e) m
  constructor
  · intro found m' hfound
    rw [hfind, run_ofExcept] at hfound
    obtain ⟨hpassing, rfl⟩ := Prod.mk.inj hfound
    refine ⟨exists_passing_iff.1 ⟨found, hpassing⟩, passing_eq_accepted hpassing, ?_, ?_⟩
    · rw [hcontains, run_ofExcept, anyPasses_of_passing hpassing]
    · rw [delete_scan hstrategy hscan hkind, hjudge, Container.spare_map, tally_of_passing hpassing]
  · intro x m' hfailed
    rw [hfind, run_ofExcept] at hfailed
    exact exists_of_passing_eq_error (Prod.mk.inj hfailed).1

/-- An operator searches by a verified plan, or it scans by the code of its condition. -/
theorem compile_cases {n k : Nat} (hcompile : compile context info e container n = .ok (o, k)) :
    (∃ p, p.isVerified = true ∧ o = ⟨.plan p, info.storeSlot⟩) ∨
      ∃ kind c, kind ≠ .indexed ∧ Compile.condition context e info.layout n = .ok (c, k) ∧
        o = ⟨.scan kind c, info.storeSlot⟩ := by
  cases container with
  | indexed h capability =>
      obtain ⟨_, _, p, _, -, -, hp, rfl⟩ := compile_indexed hcompile
      exact .inl ⟨p, Plan.isVerified_of_build hp, rfl⟩
  | other name => exact absurd hcompile throw_eq_ok.1
  | _ =>
      obtain ⟨c, hc, rfl⟩ := compile_unindexed hcompile rfl nofun
      refine .inr ⟨_, c, ?_, hc, rfl⟩
      nofun

/-- The uses of an operator agree. On an indexed store `contains` and `delete` do what the list of
matches says and fail as the listing does. On a container that is scanned the matches are the
candidates that the condition accepts, in their order, and where the listing succeeds, `contains`
and `delete` do what it says. -/
theorem find_contains_delete_agree (hfree : e.isAggregateFree = true) {operator : Stateful Operator}
    (hcompile : (compile context info e container).finish = .ok operator) (rows : SourceRows)
    (matching : Frame) (m : Memory) :
    (operator.code.kind = .indexed → ∀ d primaryKey indexes h,
        Holder.Reachable d primaryKey indexes h → ∀ seen,
          operator.code.AgreesOnStore rows matching d primaryKey indexes h seen m) ∧
      (operator.code.kind ≠ .indexed → ∀ c, c.kind? = some operator.code.kind →
        ∃ (condition : Code) (verdict : StoredEvent → Except LookupError Bool),
          (Compile.condition context e info.layout).finish = .ok ⟨condition, operator.memory⟩ ∧
            (∀ x, operator.code.accepts rows matching condition x = Run.ofExcept (verdict x)) ∧
            operator.code.AgreesOnScan rows matching c verdict m) := by
  obtain ⟨o, _, ho, rfl⟩ := finish_eq_ok.1 hcompile
  rcases compile_cases ho with ⟨p, hp, rfl⟩ | ⟨kind, condition, hscan, hcondition, rfl⟩
  · refine ⟨fun _ d primaryKey indexes h hreachable seen =>
      agreesOnStore rfl hp hreachable seen m, fun hkind => absurd rfl hkind⟩
  · refine ⟨fun hkind => absurd hkind hscan, fun _ c hkind => ?_⟩
    -- Without aggregates the tests do not disturb each other, so each candidate has one verdict.
    have hstateless : condition.isStateless = true :=
      (Compile.compiles_of_code context e hfree (Compile.condition_eq_ok.1 hcondition).1).stateless
    let verdict (x : StoredEvent) : Except LookupError Bool :=
      (condition.decision rows (matching.setSlot info.storeSlot (some x.event))).mapError .eval
    have haccepts (x : StoredEvent) :
        accepts ⟨.scan kind condition, info.storeSlot⟩ rows matching condition x =
          Run.ofExcept (verdict x) := by
      rw [accepts, Code.test_eq_decision hstateless, mapError_ofExcept]
    exact ⟨condition, verdict, finish_eq_ok.2 ⟨condition, _, hcondition, rfl⟩, haccepts,
      agreesOnScan rfl hscan hkind haccepts m⟩

/-- Of two quotes the lookup and the scan find the first one, say that there is one, and remove
it. -/
theorem find_contains_delete_agree_quotes :
    (∃ left,
      Quotes.lookup.delete (fun _ => []) (Quotes.order 9 3)
          (.indexed Quotes.store Quotes.store.capability) (.fresh 0) =
        ((.ok 1, .indexed left Quotes.store.capability), .fresh 0) ∧
      Quotes.store.IsWithout left (Quotes.store.events.take 1)) ∧
    Quotes.scan.contains (fun _ => []) (Quotes.order 9 3) (.chunk Quotes.store.events) (.fresh 0) =
      (.ok true, .fresh 0) := by
  have hfound : Quotes.lookup.find (fun _ => []) (Quotes.order 9 3)
      (.indexed Quotes.store Quotes.store.capability) (.fresh 0) =
        (.ok (Quotes.store.events.take 1), .fresh 0) := by
    decide +kernel
  have hscanned : Quotes.scan.find (fun _ => []) (Quotes.order 9 3)
      (.chunk Quotes.store.events) (.fresh 0) =
        (.ok (Quotes.store.events.take 1), .fresh 0) := by
    decide +kernel
  constructor
  · obtain ⟨-, left, hdelete, hwithout, -⟩ :=
      ((find_contains_delete_agree rfl Quotes.compile_lookup (fun _ => []) (Quotes.order 9 3)
        (.fresh 0)).1 rfl _ _ _ _ Quotes.reachable_store Quotes.store.capability).found hfound
    exact ⟨left, hdelete, hwithout⟩
  · obtain ⟨_, _, -, -, hagrees⟩ :=
      (find_contains_delete_agree rfl Quotes.compile_scan (fun _ => []) (Quotes.order 9 3)
        (.fresh 0)).2 nofun (.chunk Quotes.store.events) rfl
    exact (hagrees.found hscanned).2.2.1

end Operator

end EventQuery
