import EventQuery.Proofs.Store.Holder
import Mathlib.Data.List.Sort

/-!
Searching a store by key, by index or by a scan. `Holder.walk` answers a probe the way an ordered
map does, by the range of keys that the operator leaves open, and `Holder.scan` is what an answer is
to be: a filter of the stored events, sorted where the attribute is a key or has an index.
`findEvents_eq_scan` says that both are `Holder.findEvents` in every store that can be reached.
-/

namespace EventQuery

/-! ### Ranges of keys -/

/-- A test of values that holds of all values before one of which it holds. -/
def Value.Initial (test : Value → Bool) : Prop :=
  ∀ a b : Value, a.order b = .lt → test b = true → test a = true

/-- An end of a range of keys. -/
inductive KeyBound where
  | unbounded
  | included (key : Value)
  | excluded (key : Value)

namespace KeyBound

/-- Whether a key comes before a range with this lower end. -/
def isAfter : KeyBound → Value → Bool
  | .unbounded, _ => false
  | .included key, k => k.order key == .lt
  | .excluded key, k => (k.order key).isLE

/-- Whether a key does not come after a range with this upper end. -/
def reaches : KeyBound → Value → Bool
  | .unbounded, _ => true
  | .included key, k => (k.order key).isLE
  | .excluded key, k => k.order key == .lt

theorem initial_isAfter (lower : KeyBound) : Value.Initial lower.isAfter := by
  intro a b h hb
  cases lower with
  | unbounded => exact hb
  | included key => exact beq_iff_eq.2 (Std.TransCmp.lt_trans h (beq_iff_eq.1 hb))
  | excluded key => exact Ordering.isLE_of_eq_lt (Std.TransCmp.lt_of_lt_of_isLE h hb)

theorem initial_reaches (upper : KeyBound) : Value.Initial upper.reaches := by
  intro a b h hb
  cases upper with
  | unbounded => rfl
  | included key => exact Ordering.isLE_of_eq_lt (Std.TransCmp.lt_of_lt_of_isLE h hb)
  | excluded key => exact beq_iff_eq.2 (Std.TransCmp.lt_trans h (beq_iff_eq.1 hb))

end KeyBound

/-- The keys that an operator leaves open for a probe. -/
def Comparison.range : Comparison → Value → KeyBound × KeyBound
  | .equal, probe => (.included probe, .included probe)
  | .notEqual, _ => (.unbounded, .unbounded)
  | .less, probe => (.unbounded, .excluded probe)
  | .lessEqual, probe => (.unbounded, .included probe)
  | .greater, probe => (.excluded probe, .unbounded)
  | .greaterEqual, probe => (.included probe, .unbounded)

/-- An operator holds for no key outside of its range. -/
theorem Comparison.mem_range_of_holds {op : Comparison} {probe k : Value}
    (h : op.holds k probe = true) :
    (op.range probe).1.isAfter k = false ∧ (op.range probe).2.reaches k = true := by
  obtain ⟨o, ho, haccepts⟩ : ∃ o, k.order probe = o ∧ op.accepts o = true := by
    unfold holds Value.compare? at h
    grind
  cases op <;> simp_all [range, accepts, KeyBound.isAfter, KeyBound.reaches,
    Ordering.isLE_iff_ne_gt]

namespace OrderedMap

variable {β : Type}

/-- The entries between two ends. -/
def between (m : OrderedMap β) (lower upper : KeyBound) : OrderedMap β :=
  (m.dropWhile fun p => lower.isAfter p.1).takeWhile fun p => upper.reaches p.1

/-- The entries that answer a probe, found in the range of the operator. An equality probe with null
reads the entry of null. -/
def matching (m : OrderedMap β) (op : Comparison) (probe : Value) : OrderedMap β :=
  if op = .equal && probe.isNull then (List.find? (fun p => probe.same p.1) m).toList
  else (m.between (op.range probe).1 (op.range probe).2).filter fun p => op.holds p.1 probe

theorem Sorted.takeWhile_eq {m : OrderedMap β} (h : Sorted m) {test : Value → Bool}
    (htest : Value.Initial test) :
    m.takeWhile (fun p => test p.1) = m.filter fun p => test p.1 := by
  induction m with
  | nil => rfl
  | cons head rest ih =>
      rw [List.takeWhile_cons, List.filter_cons]
      split
      · rw [ih h.tail]
      · rename_i hhead
        refine (List.filter_eq_nil_iff.2 fun q hq hpass => hhead ?_).symm
        exact htest _ _ (h.head_lt hq) hpass

theorem Sorted.dropWhile_eq {m : OrderedMap β} (h : Sorted m) {test : Value → Bool}
    (htest : Value.Initial test) :
    m.dropWhile (fun p => test p.1) = m.filter fun p => !test p.1 := by
  induction m with
  | nil => rfl
  | cons head rest ih =>
      rw [List.dropWhile_cons, List.filter_cons]
      cases hhead : test head.1 with
      | true => exact ih h.tail
      | false =>
          have hrest : rest.filter (fun p => !test p.1) = rest := by
            refine List.filter_eq_self.2 fun q hq => ?_
            rw [Bool.not_eq_true', Bool.eq_false_iff]
            intro hpass
            rw [htest _ _ (h.head_lt hq) hpass] at hhead
            cases hhead
          rw [hrest]
          rfl

/-- A sorted map has a key at most once, so the first entry of a key is all of them. -/
theorem Sorted.find?_toList {m : OrderedMap β} (h : Sorted m) (key : Value) :
    (List.find? (fun p => key.same p.1) m).toList = m.filter fun p => key.same p.1 := by
  induction m with
  | nil => rfl
  | cons head rest ih =>
      rw [List.find?_cons, List.filter_cons]
      cases hhead : key.same head.1 with
      | false => exact ih h.tail
      | true =>
          have hrest : rest.filter (fun p => key.same p.1) = [] := by
            refine List.filter_eq_nil_iff.2 fun q hq => ?_
            rw [Value.same_congr_left hhead, Sorted.same_eq_false_of_lt (h.head_lt hq)]
            exact Bool.false_ne_true
          rw [hrest]
          rfl

/-- Walking the range of an operator finds all entries that answer the probe. -/
theorem Sorted.matching_eq {m : OrderedMap β} (h : Sorted m) (op : Comparison) (probe : Value) :
    m.matching op probe = m.filter fun p => op.probes probe p.1 := by
  unfold matching Comparison.probes
  split
  · rename_i hnull
    rw [h.find?_toList]
    refine List.filter_congr fun p _ => ?_
    rw [Value.isNull_iff_eq_null.1 (Bool.and_eq_true_iff.1 hnull).2]
    exact Value.null_same p.1
  · have hinitial := h.dropWhile_eq (op.range probe).1.initial_isAfter
    rw [between, hinitial, Sorted.takeWhile_eq (h.filter _) (op.range probe).2.initial_reaches,
      List.filter_filter, List.filter_filter]
    refine List.filter_congr fun p _ => ?_
    cases hholds : op.holds p.1 probe with
    | false => rfl
    | true =>
        obtain ⟨hlower, hupper⟩ := Comparison.mem_range_of_holds hholds
        rw [hlower, hupper]
        rfl

end OrderedMap

namespace StoredEvent

/-- The order of the answers of an index: by an attribute, and then by acceptance. -/
def answerOrder (position : Nat) (a b : StoredEvent) : Ordering :=
  ((a.event.get position).order (b.event.get position)).then (compare a.id b.id)

instance (position : Nat) : Std.TransCmp (answerOrder position) := by
  let _ : Ord Value := ⟨Value.order⟩
  have : Std.TransOrd Value := inferInstanceAs (Std.TransCmp Value.order)
  exact inferInstanceAs (Std.TransCmp (compareLex (compareOn fun e => e.event.get position)
    (compareOn StoredEvent.id)))

end StoredEvent

/-- The events of a set in the order of the answers of an index. -/
def EventSet.ascendingBy (position : Nat) (s : EventSet) : EventSet :=
  s.mergeSort fun a b => (a.answerOrder position b).isLE

/-- A sorted arrangement of the events of a set is the one that sorting gives. -/
theorem EventSet.eq_ascendingBy {position : Nat} {s t : EventSet} (hid : EventSet.Identified t)
    (hs : s.Nodup) (ht : t.Nodup) (hmem : ∀ e, e ∈ s ↔ e ∈ t)
    (hsorted : s.Pairwise fun a b => (a.answerOrder position b).isLE) :
    s = EventSet.ascendingBy position t := by
  have hperm : s.Perm (EventSet.ascendingBy position t) :=
    ((List.perm_ext_iff_of_nodup hs ht).2 hmem).trans (List.mergeSort_perm t _).symm
  refine hperm.eq_of_pairwise (fun a b ha hb hle hge => ?_) hsorted
    (List.pairwise_mergeSort (fun a b c => Std.TransCmp.isLE_trans) (fun a b => ?_) t)
  · have heq := Std.OrientedCmp.isLE_antisymm hle hge
    refine hid a ((hmem a).1 ha) b ((List.mergeSort_perm t _).mem_iff.1 hb) ?_
    exact Nat.compare_eq_eq.1 (Ordering.then_eq_eq.1 heq).2
  · have hswap : b.answerOrder position a = (a.answerOrder position b).swap :=
      Std.OrientedCmp.eq_swap
    rw [hswap]
    cases a.answerOrder position b <;> rfl

namespace Index

variable {i : Index} {events : EventSet}

/-- The events of the selected buckets are in the order of answers. -/
theorem Lists.pairwise_select (h : i.Lists events) (hevents : events.Pairwise (·.id < ·.id))
    (test : Value → Bool) :
    (i.buckets.select test).flatten.Pairwise fun a b =>
      (a.answerOrder i.position b).isLE := by
  rw [List.pairwise_flatten, OrderedMap.select, List.pairwise_map]
  constructor
  · intro bucket hbucket
    obtain ⟨p, hp, rfl⟩ := List.mem_map.1 hbucket
    rw [h.bucket p (List.mem_filter.1 hp).1]
    -- Events of one bucket have one value and keep the order of acceptance.
    refine (hevents.filter _).imp_of_mem fun {a b} ha hb hlt => ?_
    have hvalue : (a.event.get i.position).order (b.event.get i.position) = .eq := by
      rw [← Value.order_congr_left (List.mem_filter.1 ha).2]
      exact Value.same_iff.1 (List.mem_filter.1 hb).2
    rw [StoredEvent.answerOrder, hvalue, Nat.compare_eq_lt.2 hlt]
    rfl
  · refine (h.sorted.filter _).imp_of_mem fun {p q} hp hq hlt a ha b hb => ?_
    rw [h.bucket p (List.mem_filter.1 hp).1, List.mem_filter] at ha
    rw [h.bucket q (List.mem_filter.1 hq).1, List.mem_filter] at hb
    rw [Value.order_congr_left ha.2, Value.order_congr_right hb.2] at hlt
    rw [StoredEvent.answerOrder, hlt]
    rfl

end Index

namespace Holder

variable {h : Holder}

/-! ### Answers -/

/-- What a probe is to find: the stored events whose attribute answers it, in the order of
acceptance unless the attribute is the key or has an index. There is nothing to find under a name
that the definition lacks. -/
def scan (h : Holder) (name : String) (op : Comparison) (probe : Value) : EventSet :=
  match h.definition.position name with
  | none => []
  | some position =>
    let found := h.events.filter fun e => op.probes probe (e.event.get position)
    if h.isIndexed name then EventSet.ascendingBy position found else found

/-- Answer a probe from the entries in the range of the operator, by the key before an index. -/
def walk (h : Holder) (name : String) (op : Comparison) (probe : Value) : EventSet :=
  if h.isPrimaryKey name then (h.primary.matching op probe).map (·.2)
  else
    match h.index? name with
    | some index => (index.buckets.matching op probe).flatMap (·.2)
    | none =>
      match h.definition.position name with
      | none => []
      | some position => h.events.filter fun e =>
          if op = .equal && probe.isNull then (e.event.get position).isNull
          else op.holds (e.event.get position) probe

/-- Answer whether a probe finds something from the entries in the range of the operator. -/
def walkContains (h : Holder) (name : String) (op : Comparison) (probe : Value) : Bool :=
  if h.isPrimaryKey name then (h.primary.matching op probe).head?.isSome
  else
    match h.index? name with
    | some index => (index.buckets.matching op probe).any fun (_, bucket) => !bucket.isEmpty
    | none => !(h.walk name op probe).isEmpty

/-- Ranges of keys leave out nothing that the entries of the key or an index would answer. -/
theorem Consistent.walk_eq (hc : h.Consistent) (name : String) (op : Comparison) (probe : Value) :
    h.walk name op probe = h.findEvents name op probe := by
  unfold walk findEvents
  split
  · rw [hc.sorted.matching_eq]
    rfl
  · cases hindex : h.index? name with
    | none => rfl
    | some i =>
        dsimp only
        rw [(hc.indexes i (index?_eq_some hindex).1).sorted.matching_eq, List.flatMap_def]
        rfl

theorem Consistent.walkContains_eq (hc : h.Consistent) (name : String) (op : Comparison)
    (probe : Value) :
    h.walkContains name op probe = h.containsEvent name op probe := by
  unfold walkContains containsEvent
  split
  · rw [hc.sorted.matching_eq, List.head?_filter, List.isSome_find?]
  · cases hindex : h.index? name with
    | none => rw [hc.walk_eq]
    | some i =>
        dsimp only
        rw [(hc.indexes i (index?_eq_some hindex).1).sorted.matching_eq, List.any_filter]

/-- The entries of the key are in the order of answers. -/
theorem Consistent.pairwise_primary (hc : h.Consistent) {name : String} {position : Nat}
    (hkey : h.primaryKey = some (name, position)) (test : Value → Bool) :
    (h.primary.select test).Pairwise fun a b => (a.answerOrder position b).isLE := by
  rw [OrderedMap.select, List.pairwise_map]
  refine (hc.sorted.filter _).imp_of_mem fun {p q} hp hq hlt => ?_
  have hp' := ((hc.primary name position hkey p.1 p.2).1 (List.mem_filter.1 hp).1).2
  have hq' := ((hc.primary name position hkey q.1 q.2).1 (List.mem_filter.1 hq).1).2
  rw [hp', hq'] at hlt
  rw [StoredEvent.answerOrder, hlt]
  rfl

/-- Answers from the key or an index are in the order of answers. -/
theorem Consistent.pairwise_findEvents (hc : h.Consistent) {name : String} {position : Nat}
    (hposition : h.definition.position name = some position) (hindexed : h.isIndexed name = true)
    (op : Comparison) (probe : Value) :
    (h.findEvents name op probe).Pairwise fun a b => (a.answerOrder position b).isLE := by
  unfold findEvents
  split
  · rename_i hprimary
    obtain ⟨position', hkey⟩ := isPrimaryKey_iff.1 hprimary
    obtain rfl : position' = position := by
      simpa [hposition] using (hc.keyAt name position' hkey).symm
    exact hc.pairwise_primary hkey _
  · rename_i hprimary
    split
    · rename_i i hindex
      obtain ⟨hi, rfl⟩ := index?_eq_some hindex
      obtain rfl : i.position = position := by simpa [hposition] using (hc.indexAt i hi).symm
      exact (hc.indexes i hi).pairwise_select hc.ascending _
    · rename_i hindex
      simp [isIndexed, hprimary, hindex] at hindexed

/-- Whichever way a probe is answered, the answer is what a scan of the stored events finds, sorted
where the attribute is the key or has an index. -/
theorem Consistent.findEvents_eq (hc : h.Consistent) (name : String) (op : Comparison)
    (probe : Value) :
    h.findEvents name op probe = h.scan name op probe := by
  unfold scan
  split
  · rename_i hposition
    exact hc.findEvents_unknown hposition op probe
  · rename_i position hposition
    dsimp only
    split
    · rename_i hindexed
      refine EventSet.eq_ascendingBy ?_ (hc.nodup_findEvents name op probe) (hc.nodup.filter _)
        (fun e => ?_) (hc.pairwise_findEvents hposition hindexed op probe)
      · exact fun a ha b hb => hc.identified a (List.mem_filter.1 ha).1 b (List.mem_filter.1 hb).1
      · rw [hc.mem_findEvents hposition, List.mem_filter]
    · rename_i hindexed
      rw [isIndexed, Bool.or_eq_true, not_or] at hindexed
      rw [findEvents, if_neg hindexed.1, Option.not_isSome_iff_eq_none.1 hindexed.2, hposition]

/-! ### The configuration of a store -/

/-- A store keeps its definition, its key and the names of its indexes. -/
structure Configured (d : Definition) (primaryKey : Option String) (indexes : List String)
    (h : Holder) : Prop where
  definition : h.definition = d
  key : h.primaryKey.map (·.1) = primaryKey
  index : ∀ name, name ∈ h.indexes.map (·.name) ↔ name ∈ indexes

section Configured

variable {d : Definition} {primaryKey : Option String} {indexes : List String}

theorem mem_addIndexes {names : List String} {h' : Holder} (hadd : h.addIndexes names = .ok h')
    (name : String) :
    name ∈ h'.indexes.map (·.name) ↔ name ∈ h.indexes.map (·.name) ∨ name ∈ names := by
  induction names generalizing h with
  | nil =>
      cases hadd
      simp
  | cons other rest ih =>
      unfold Holder.addIndexes at hadd
      cases hkey : keyPosition h.definition other with
      | error e => simp [hkey, bind, Except.bind] at hadd
      | ok position =>
          simp only [hkey, bind, Except.bind] at hadd
          split at hadd
          · rename_i hany
            have hmem : other ∈ h.indexes.map (·.name) := by simpa using hany
            rw [ih hadd, List.mem_cons]
            grind
          · rw [ih hadd]
            simp [or_assoc]

theorem configured_build (hbuild : Holder.build d primaryKey indexes = .ok h) :
    h.Configured d primaryKey indexes := by
  cases primaryKey with
  | none =>
      obtain ⟨hdefinition, hkey, -⟩ := addIndexes_eq_ok hbuild
      exact ⟨hdefinition, by rw [hkey]; rfl, by simpa [unindexed] using mem_addIndexes hbuild⟩
  | some name =>
      simp only [Holder.build] at hbuild
      cases hposition : keyPosition d name with
      | error e => simp [hposition, bind, Except.bind] at hbuild
      | ok position =>
          simp only [hposition, bind, Except.bind] at hbuild
          obtain ⟨hdefinition, hkey, -⟩ := addIndexes_eq_ok hbuild
          exact ⟨hdefinition, by rw [hkey]; rfl, by simpa [unindexed] using mem_addIndexes hbuild⟩

theorem Configured.add (hconf : h.Configured d primaryKey indexes) (event : Event) :
    (h.add event).2.Configured d primaryKey indexes := by
  rw [add_eq]
  split
  · exact hconf
  · exact ⟨hconf.definition, hconf.key, by simpa [accept] using hconf.index⟩

theorem Configured.deleteEvents (hconf : h.Configured d primaryKey indexes) (handles : EventSet) :
    (h.deleteEvents handles).2.Configured d primaryKey indexes := by
  induction handles generalizing h with
  | nil => exact hconf
  | cons handle rest ih =>
      simp only [Holder.deleteEvents]
      split
      · exact ih ⟨hconf.definition, hconf.key, by simpa [removeStored] using hconf.index⟩
      · exact ih hconf

theorem Reachable.configured (hr : Reachable d primaryKey indexes h) :
    h.Configured d primaryKey indexes := by
  induction hr with
  | build hbuild => exact configured_build hbuild
  | add event _ ih => exact ih.add event
  | deleteEvents handles _ ih => exact ih.deleteEvents handles
  | delete name op probe _ ih => exact ih.deleteEvents _
  | clear _ ih => exact ⟨ih.definition, ih.key, by simpa [Holder.clear] using ih.index⟩

theorem Configured.isIndexed_iff (hconf : h.Configured d primaryKey indexes) (name : String) :
    h.isIndexed name = true ↔ primaryKey = some name ∨ name ∈ indexes := by
  rw [isIndexed, Bool.or_eq_true, ← hconf.key, ← hconf.index name]
  simp [isPrimaryKey, index?, Option.any_eq_true]

/-! ### The answers of a store -/

/-- In every store that can be reached a probe finds the stored events whose attribute answers it:
ascending by attribute where that is the key or has an index, and by acceptance elsewhere and among
equal values. It makes no difference that keys and indexes are walked by ranges, and a store has an
event for the probe just in case that it finds one. -/
theorem Reachable.findEvents_eq_scan (hr : Reachable d primaryKey indexes h) (name : String)
    (op : Comparison) (probe : Value) :
    h.findEvents name op probe = h.scan name op probe ∧
      h.walk name op probe = h.scan name op probe ∧
      h.containsEvent name op probe = !(h.scan name op probe).isEmpty ∧
      h.walkContains name op probe = !(h.scan name op probe).isEmpty ∧
      (h.isIndexed name = true ↔ primaryKey = some name ∨ name ∈ indexes) ∧
      h.definition = d ∧ h.events.Pairwise (·.id < ·.id) := by
  have hc := hr.consistent
  have hcontains : h.containsEvent name op probe = !(h.scan name op probe).isEmpty := by
    rw [containsEvent_eq, hc.findEvents_eq]
  exact ⟨hc.findEvents_eq name op probe, (hc.walk_eq name op probe).trans (hc.findEvents_eq ..),
    hcontains, (hc.walkContains_eq name op probe).trans hcontains,
    hr.configured.isIndexed_iff name, hr.configured.definition, hc.ascending⟩

end Configured

namespace Mixed

def definition : Definition := ⟨"Price", [⟨"symbol", .string⟩, ⟨"price", .double⟩]⟩

def empty : Holder := ⟨definition, some ("symbol", 0), 0, [], [], [⟨"price", 1, []⟩]⟩

/-- Prices of several types, one of them missing. -/
def store : Holder :=
  ((((empty.add (.current 0 [.string "A", .null])).2.add
    (.current 0 [.string "B", .int 2])).2.add
    (.current 0 [.string "C", .double (.ofInt 2)])).2.add
    (.current 0 [.string "D", .long 1])).2

theorem reachable_store : Reachable definition (some "symbol") ["price"] store :=
  .add _ (.add _ (.add _ (.add _ (.build rfl))))

end Mixed

/-- Equal prices of different types are found together, in the order of acceptance, and a missing
price is found by null alone. -/
theorem findEvents_eq_scan_mixed :
    Reachable Mixed.definition (some "symbol") ["price"] Mixed.store ∧
      (Mixed.store.scan "price" .greaterEqual (.int 1)).map (·.id) = [3, 1, 2] ∧
      (Mixed.store.scan "price" .less (.int 1)).map (·.id) = [] ∧
      (Mixed.store.scan "price" .equal .null).map (·.id) = [0] ∧
      Mixed.store.containsEvent "price" .greaterEqual (.string "1") = false := by
  have hscan (op : Comparison) (probe : Value) :=
    Reachable.findEvents_eq_scan Mixed.reachable_store "price" op probe
  refine ⟨Mixed.reachable_store, ?_, ?_, ?_, ?_⟩
  · rw [← (hscan _ _).1]
    decide +kernel
  · rw [← (hscan _ _).1]
    decide +kernel
  · rw [← (hscan _ _).1]
    decide +kernel
  · rw [(hscan _ _).2.2.1, ← (hscan _ _).1]
    decide +kernel

end Holder

end EventQuery
