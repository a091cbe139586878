import EventQuery.Lookup.Operator
import EventQuery.Proofs.Lookup.Plan

/-!
Lookups against scans. The plan of a condition and a scan of all stored events find the same events
whenever both succeed.
-/

namespace EventQuery

open Allot

namespace Plan

variable {s : Search} {c : Code} {p : Plan}

/-- A plan that answers as outermost plans do finds a set of stored events that settles its
condition, or it fails as the search for candidates does. -/
theorem find_of_answered (h : s.Answered true c (p.findCandidates s)) :
    (∃ events, p.find s = pure events ∧ EventSet.DrawnFrom s.holder.events events ∧
      s.Settles c fun e => e ∈ events) ∨
      ∃ x, p.findCandidates s = Run.ofExcept (.error x) ∧
        p.find s = Run.ofExcept (.error (.eval x)) := by
  obtain ⟨result, hrun, h⟩ := h
  unfold Plan.find
  rw [hrun, Run.mapError_ofExcept]
  cases result with
  | error x => exact .inr ⟨x, rfl, rfl⟩
  | ok found =>
      obtain ⟨hexact, hproper, T, hT, hcovers⟩ := h
      cases found with
      | exact events =>
          have hmem : (fun e => e ∈ events) = T := funext fun e => propext (hcovers e)
          exact .inl ⟨events, rfl, hproper, hmem ▸ hT⟩
      | all => cases hexact rfl
      | superset events => cases hexact rfl

end Plan

namespace Operator

variable {context : Context} {info : MatchLayout} {capability : Capability} {h : Holder}
  {e : Expr} {n m : Nat} {o : Operator}

/-- A scan without aggregates tests every event by the outcome of its condition. -/
theorem find_scan {s : Search} {c : Code} (hc : c.isStateless = true) :
    (Operator.mk (.scan .chunk c) s.storeSlot).find s.rows s.matching (.chunk s.holder.events) =
      Run.ofExcept (Run.passing (fun e => (s.outcome c e).mapError .eval) s.holder.events) := by
  have htest : ∀ e ∈ s.holder.events, accepts ⟨.scan .chunk c, s.storeSlot⟩ s.rows s.matching c e =
      Run.ofExcept ((s.outcome c e).mapError .eval) := by
    intro e _
    rw [accepts, Code.test_eq_decision hc, Run.mapError_ofExcept]
    rfl
  exact Run.filterM_ofExcept htest

/-- A scan that succeeds tells the outcome of its condition for every event. -/
theorem outcome_of_find_scan {s : Search} {c : Code} (hc : c.isStateless = true) {m m' : Memory}
    {found : List StoredEvent}
    (hfound : (Operator.mk (.scan .chunk c) s.storeSlot).find s.rows s.matching
      (.chunk s.holder.events) m = (.ok found, m')) :
    (∀ e ∈ s.holder.events, ∃ b, s.outcome c e = .ok b) ∧
      found = s.holder.events.filter fun e => (s.outcome c e).toOption == some true := by
  rw [find_scan hc, Run.run_ofExcept] at hfound
  replace hfound := (Prod.mk.inj hfound).1
  constructor
  · intro e he
    obtain ⟨b, hb⟩ := Run.exists_passing_iff.1 ⟨found, hfound⟩ e he
    cases houtcome : s.outcome c e with
    | error x => simp [houtcome, Except.mapError] at hb
    | ok b => exact ⟨b, rfl⟩
  · rw [Run.passing_eq_filter hfound]
    refine List.filter_congr fun e _ => ?_
    cases s.outcome c e <;> rfl

/-! ### Quotes that are looked up by price -/

namespace Quotes

def definition : Definition := ⟨"Quote", [⟨"symbol", .string⟩, ⟨"price", .int⟩]⟩

/-- An order in the first slot, a quote in the second. -/
def layout : MatchLayout := .join ⟨"Order", [⟨"x", .int⟩, ⟨"y", .int⟩]⟩ definition (some "t")

def empty : Holder := ⟨definition, none, 0, [], [], [⟨"price", 1, []⟩]⟩

def store : Holder :=
  ((empty.add (.current 0 [.string "A", .int 5])).2.add (.current 0 [.string "B", .int 2])).2

theorem reachable_store :
    Holder.Reachable definition none ["price"] store := .add _ (.add _ (.build rfl))

theorem carries_store : layout.Carries store.definition := rfl

/-- The condition `y == 0 or t.price > x / y`. -/
def guarded : Expr :=
  .or (.compare .equal (.named "y") (.const (.int 0)))
    (.compare .greater (.var ⟨"price", some "t"⟩) (.arith .divide (.named "x") (.named "y")))

/-- The guard `y == 0`, which does not read the quote. -/
def guard : Code := .compare .equal (.read 0 1 .int) (.const (.int 0))

def quotient : Code := .arith .divide (.read 0 0 .int) (.read 0 1 .int) .int

def code : Code := .or guard (.compare .greater (.read 1 1 .int) quotient)

/-- The guard and the quotient are evaluated on the order alone. -/
def plan : Plan := .either (.gate guard) (.compare "price" .greater 1 quotient) (some code)

def lookup : Operator := ⟨.plan plan, 1⟩

def scan : Operator := ⟨.scan .chunk code, 1⟩

theorem compile_lookup :
    (compile .standard layout guarded (.indexed store store.capability)).finish =
      .ok ⟨lookup, .fresh 0⟩ := rfl

theorem compile_scan :
    (compile .standard layout guarded (.chunk store.events)).finish = .ok ⟨scan, .fresh 0⟩ := rfl

def order (x y : Int32) : Frame := ⟨[some (.current 0 [.int x, .int y])]⟩

end Quotes

section Lookups

variable {d : Definition} {primaryKey : Option String} {indexes : List String} {h h₀ : Holder}
  {context : Context} {info : MatchLayout} {capability seen : Capability} {e : Expr}
  {index scan : Stateful Operator}

/-- The operator of an indexed store is built from a description of the code that a scan
evaluates. -/
theorem parts_of_compile (hinfo : info.Carries h.definition)
    (hdefinition : capability.definition = h.definition) (hfree : e.isAggregateFree = true)
    (hindex : (compile context info e (.indexed h₀ capability)).finish = .ok index)
    {events : List StoredEvent}
    (hscan : (compile context info e (.chunk events)).finish = .ok scan) :
    ∃ p cl c k m, index.code = ⟨.plan p, info.storeSlot⟩ ∧
      scan.code = ⟨.scan .chunk c, info.storeSlot⟩ ∧ Describes context capability info cl c ∧
      Plan.build context capability info cl true k = .ok (p, m) := by
  obtain ⟨o, m, hlookup, rfl⟩ := finish_eq_ok.1 hindex
  obtain ⟨o', _, hchunk, rfl⟩ := finish_eq_ok.1 hscan
  obtain ⟨_, cl, p, k, -, hcl, hp, rfl⟩ := compile_indexed hlookup
  obtain ⟨c, hc, rfl⟩ := compile_unindexed hchunk rfl nofun
  replace hc := (Compile.condition_eq_ok.1 hc).1
  exact ⟨p, cl, c, k, m, rfl, rfl, describes_of_classify (hdefinition ▸ hinfo) e hfree hc hcl, hp⟩

/-- A lookup in a store finds the events that a scan of the store finds, each once. The operator may
have been compiled against an earlier state of the store, and for any capability that speaks of its
definition, so also where the support of some comparisons is denied. -/
theorem find_indexed_eq_scan (hreachable : Holder.Reachable d primaryKey indexes h)
    (hinfo : info.Carries h.definition) (hdefinition : capability.definition = h.definition)
    (hfree : e.isAggregateFree = true)
    (hindex : (compile context info e (.indexed h₀ capability)).finish = .ok index)
    (hscan : (compile context info e (.chunk h.events)).finish = .ok scan) {rows : SourceRows}
    {matching : Frame} {m m' n n' : Memory} {found scanned : List StoredEvent}
    (hfound : index.code.find rows matching (.indexed h seen) m = (.ok found, m'))
    (hscanned : scan.code.find rows matching (.chunk h.events) n = (.ok scanned, n')) :
    (found.map (·.id)).Nodup ∧ (scanned.map (·.id)).Nodup ∧ ∀ x, x ∈ found ↔ x ∈ scanned := by
  have hs := hreachable.consistent
  obtain ⟨p, cl, c, _, _, hplan, hcode, hdescribes, hp⟩ :=
    parts_of_compile hinfo hdefinition hfree hindex hscan
  rw [hplan] at hfound
  rw [hcode] at hscanned
  replace hfound : p.find ⟨rows, h, info.storeSlot, matching⟩ m = (.ok found, m') := hfound
  obtain ⟨hok, rfl⟩ := outcome_of_find_scan (s := ⟨rows, h, info.storeSlot, matching⟩)
    hdescribes.compiles.stateless hscanned
  have hanswered := Plan.answered_of_build (s := ⟨rows, h, info.storeSlot, matching⟩) hs rfl
    hdefinition hdescribes hp
  rcases Plan.find_of_answered hanswered with
    ⟨events, hevents, hdrawn, hsettles⟩ | ⟨x, -, hfails⟩
  · rw [hevents] at hfound
    obtain rfl : events = found := Except.ok.inj (Prod.mk.inj hfound).1
    refine ⟨hdrawn.nodup_ids hs.identified, (hs.drawn.filter _).nodup_ids hs.identified,
      fun x => ?_⟩
    rw [List.mem_filter]
    -- The events that the lookup finds settle the condition, and no outcome is left open.
    constructor
    · intro hx
      have hstored := hdrawn.subset x hx
      obtain ⟨b, hb⟩ := hok x hstored
      obtain rfl := (hsettles.decided x hstored b hb).1 hx
      exact ⟨hstored, by rw [hb]; rfl⟩
    · rintro ⟨hstored, htrue⟩
      obtain ⟨b, hb⟩ := hok x hstored
      rw [hb] at htrue
      exact (hsettles.decided x hstored b hb).2 (by simpa [Except.toOption] using htrue)
  · rw [hfails] at hfound
    cases (Prod.mk.inj hfound).1

/-- Of two quotes the lookup and the scan find the one that costs more than a third of the order. -/
theorem find_indexed_eq_scan_quotes :
    ∃ found scanned : List StoredEvent,
      Quotes.lookup.find (fun _ => []) (Quotes.order 9 3)
        (.indexed Quotes.store Quotes.store.capability) (.fresh 0) =
          (.ok found, .fresh 0) ∧
        Quotes.scan.find (fun _ => []) (Quotes.order 9 3) (.chunk Quotes.store.events) (.fresh 0) =
          (.ok scanned, .fresh 0) ∧
        found.map (·.id) = [0] ∧
        (found.map (·.id)).Nodup ∧ (scanned.map (·.id)).Nodup ∧ ∀ x, x ∈ found ↔ x ∈ scanned := by
  have hfound : Quotes.lookup.find (fun _ => []) (Quotes.order 9 3)
      (.indexed Quotes.store Quotes.store.capability) (.fresh 0) =
        (.ok (Quotes.store.events.take 1), .fresh 0) := by
    decide +kernel
  have hscanned : Quotes.scan.find (fun _ => []) (Quotes.order 9 3)
      (.chunk Quotes.store.events) (.fresh 0) =
        (.ok (Quotes.store.events.take 1), .fresh 0) := by
    decide +kernel
  exact ⟨_, _, hfound, hscanned, rfl,
    find_indexed_eq_scan Quotes.reachable_store Quotes.carries_store rfl rfl Quotes.compile_lookup
      Quotes.compile_scan hfound hscanned⟩

end Lookups

end Operator

end EventQuery
