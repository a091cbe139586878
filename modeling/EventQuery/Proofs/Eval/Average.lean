import EventQuery.Eval.Compile
import EventQuery.Proofs.Eval.Aggregate
import EventQuery.Proofs.Eval.Typing
import EventQuery.Proofs.Number.Format
import Mathlib.Data.List.Infix

/-!
Averages of integers. An average adds up its values as doubles, which is exact as long as the values
and their running sums have at most 53 bits, and divides by the number of values that are not null.
-/

namespace EventQuery

open Number

/-- The average of some integers, and null where there are none. -/
def average (sum : Int) (count : Nat) : Value :=
  if count = 0 then .null else .double ((Double.ofInt sum).div (.ofInt count))

/-- Values that an average takes in exactly: the integers and their running sums have at most 53
bits, and there are no more values than can be counted. -/
structure AddsExactly (vs : List Value) : Prop where
  values : ∀ v ∈ vs, v.longPart.natAbs < 2 ^ 53
  sums : ∀ ws ∈ vs.inits, (ws.map Value.longPart).sum.natAbs < 2 ^ 53
  length : vs.length < 2 ^ 63

instance (vs : List Value) : Decidable (AddsExactly vs) :=
  decidable_of_iff ((∀ v ∈ vs, v.longPart.natAbs < 2 ^ 53) ∧
      (∀ ws ∈ vs.inits, (ws.map Value.longPart).sum.natAbs < 2 ^ 53) ∧ vs.length < 2 ^ 63)
    ⟨fun ⟨values, sums, length⟩ => ⟨values, sums, length⟩, fun h => ⟨h.values, h.sums, h.length⟩⟩

theorem AddsExactly.left {vs ws : List Value} (h : AddsExactly (vs ++ ws)) : AddsExactly vs where
  values v hv := h.values v (List.mem_append_left _ hv)
  sums us hus := h.sums us
    ((List.mem_inits _ _).2 (((List.mem_inits _ _).1 hus).trans (List.prefix_append vs ws)))
  length := by
    have hlength := h.length
    rw [List.length_append] at hlength
    omega

theorem AddsExactly.sum_lt {vs : List Value} (h : AddsExactly vs) :
    (vs.map Value.longPart).sum.natAbs < 2 ^ 53 :=
  h.sums vs ((List.mem_inits _ _).2 (List.prefix_refl vs))

/-- An integer or null. -/
def Value.IsInteger (v : Value) : Prop := v = .null ∨ ∃ l, v.asLong = some l

theorem Value.HasType.isInteger {v : Value} {type : AttributeType} (h : v.HasType type)
    (htype : type = .int ∨ type = .long) : v.IsInteger := by
  cases v with
  | null => exact .inl rfl
  | int i => exact .inr ⟨_, rfl⟩
  | long l => exact .inr ⟨_, rfl⟩
  | _ => rcases htype with rfl | rfl <;> rcases h with h | h <;> cases h

theorem Value.asDouble_eq_ofInt {v : Value} {l : Int64} (h : v.asLong = some l) :
    v.asDouble = some (.ofInt v.longPart) := by
  rw [asDouble_of_asLong h, longPart, h]
  rfl

theorem Double.ofInt_zero : Double.ofInt 0 = .zero := by decide +kernel

namespace Accumulator

/-- The state of an average after some values. -/
structure Averages (vs : List Value) (a : Accumulator) : Prop where
  count : a.count = (vs.countP fun v => !v.isNull : Nat)
  sum : a.sumDouble = .ofInt (vs.map Value.longPart).sum

variable {vs : List Value} {v : Value} {a : Accumulator}

theorem averages_empty : Averages [] empty := ⟨rfl, Double.ofInt_zero.symm⟩

theorem Averages.result (h : Averages vs a) :
    a.result .avg .double =
      average (vs.map Value.longPart).sum (vs.countP fun v => !v.isNull) := by
  rw [Accumulator.result, average, h.count, h.sum]
  simp only [Int.natCast_eq_zero]

/-- One more integer is added exactly, and null changes nothing. -/
theorem Averages.fold (h : Averages vs a) (hv : v.IsInteger) (hexact : AddsExactly (vs ++ [v])) :
    ∃ b, a.fold .avg v true = .ok b ∧ Averages (vs ++ [v]) b := by
  rcases hv with rfl | ⟨l, hl⟩
  · exact ⟨a, rfl, by simp [h.count, Value.isNull], by simp [h.sum, Value.longPart, Value.asLong]⟩
  · have hnull : v.isNull = false := by
      cases v with
      | null => cases hl
      | _ => rfl
    have hcount : (vs.countP fun v => !v.isNull) + 1 < 2 ^ 63 := by
      have hle := List.countP_le_length (p := fun v => !v.isNull) (l := vs)
      have hlength := hexact.length
      rw [List.length_append, List.length_singleton] at hlength
      omega
    have hstep : a.step true = .ok { a with count := a.count + 1 } := by
      rw [step, if_pos rfl, if_pos]
      rw [h.count, Int64.toInt_minValue, Int64.toInt_maxValue]
      omega
    have hsum : a.sumDouble.add (.ofInt v.longPart) =
        .ofInt ((vs ++ [v]).map Value.longPart).sum := by
      rw [h.sum, Double.add_ofInt hexact.left.sum_lt (hexact.values v (by simp))]
      simp
    refine ⟨{ a with count := a.count + 1, sumLong := a.sumLong + l,
                     sumDouble := a.sumDouble.add (.ofInt v.longPart) }, ?_, ?_, hsum⟩
    · simp [Accumulator.fold, hnull, hstep, addToSums, hl, Value.asDouble_eq_ofInt hl]
    · simp [h.count, hnull]

end Accumulator

/-! ### Runs over events -/

/-- The values of an evaluator on events that come one after another. -/
def Evaluator.outcomes (rows : SourceRows) : Evaluator → List Event → Except EvalError (List Value)
  | _, [] => .ok []
  | ev, e :: rest =>
    match ev.eval rows (.single e) with
    | (.error cause, _) => .error cause
    | (.ok v, ev) => do return v :: (← outcomes rows ev rest)

theorem Evaluator.outcomes_cons {rows : SourceRows} {ev ev' : Evaluator} {e : Event} {v : Value}
    (h : ev.eval rows (.single e) = (.ok v, ev')) (rest : List Event) :
    ev.outcomes rows (e :: rest) = (do return v :: (← ev'.outcomes rows rest)) := by
  rw [outcomes, h]

section Fold

variable (rows : SourceRows) (type : AttributeType) {i : Nat} {events : List Event} {e : Event}
  {vs : List Value} {m : Memory}

/-- The code of the average of an attribute. -/
def Code.averageOf (position : Nat) (type : AttributeType) : Code :=
  .fold .avg (.read 0 position type) .double 0

/-- On a current event the average takes in one more value. -/
theorem Code.run_averageOf (hcurrent : e.kind = .current) (ha : Accumulator.Averages vs (m.read 0))
    (hv : (e.get i).IsInteger) (hexact : AddsExactly (vs ++ [e.get i])) :
    ∃ b, Accumulator.Averages (vs ++ [e.get i]) b ∧
      (averageOf i type).run rows (.single e) m = (.ok (b.result .avg .double), m.write 0 b) := by
  obtain ⟨b, hb, haverages⟩ := ha.fold hv hexact
  refine ⟨b, haverages, ?_⟩
  have hkind : (Frame.single e).kind = .current := hcurrent
  have hread : (Code.read 0 i type).run rows (.single e) = pure (e.get i) := rfl
  rw [averageOf, Code.run]
  simp only [hkind, hread, pure_bind, runFold_eq, hb]

theorem Evaluator.outcomes_averageOf (hcurrent : ∀ e ∈ events, e.kind = .current)
    (ha : Accumulator.Averages vs (m.read 0)) (hm : 0 < m.cells.length)
    (hvalues : ∀ e ∈ events, (e.get i).IsInteger)
    (hexact : AddsExactly (vs ++ events.map (·.get i))) :
    ∃ returned, outcomes rows ⟨.averageOf i type, m⟩ events = .ok returned ∧
      (events ≠ [] → returned.getLast? =
        some (average ((vs ++ events.map (·.get i)).map Value.longPart).sum
          ((vs ++ events.map (·.get i)).countP fun v => !v.isNull))) := by
  induction events generalizing vs m with
  | nil => exact ⟨[], rfl, fun h => absurd rfl h⟩
  | cons e rest ih =>
      obtain ⟨hfirst, hcurrent⟩ := List.forall_mem_cons.1 hcurrent
      obtain ⟨hv, hvalues⟩ := List.forall_mem_cons.1 hvalues
      have hsplit : vs ++ (e :: rest).map (·.get i) =
          (vs ++ [e.get i]) ++ rest.map (·.get i) := by simp
      rw [hsplit] at hexact ⊢
      obtain ⟨b, hb, hrun⟩ := Code.run_averageOf rows type hfirst ha hv hexact.left
      have heval : eval ⟨.averageOf i type, m⟩ rows (.single e) =
          (.ok (b.result .avg .double), ⟨.averageOf i type, m.write 0 b⟩) := by
        rw [eval, Stateful.run, hrun]
      have hread : Accumulator.Averages (vs ++ [e.get i]) ((m.write 0 b).read 0) := by
        rwa [Memory.read_write_self hm]
      obtain ⟨returned, hreturned, hlast⟩ := ih hcurrent hread (by simpa using hm) hvalues hexact
      refine ⟨b.result .avg .double :: returned, by rw [outcomes_cons heval, hreturned]; rfl,
        fun _ => ?_⟩
      -- The last value is that of the last event, which may be the first one.
      cases rest with
      | nil =>
          cases hreturned
          simp [hb.result]
      | cons next rest =>
          rw [List.getLast?_cons, hlast (by simp), Option.getD_some]

/-- A fresh average over events ends with the average of their values. -/
theorem Evaluator.outcomes_fresh (hcurrent : ∀ e ∈ events, e.kind = .current)
    (hvalues : ∀ e ∈ events, (e.get i).IsInteger) (hexact : AddsExactly (events.map (·.get i)))
    (hne : events ≠ []) :
    ∃ returned, outcomes rows ⟨.averageOf i type, .fresh 1⟩ events = .ok returned ∧
      returned.getLast? = some (average ((events.map (·.get i)).map Value.longPart).sum
        ((events.map (·.get i)).countP fun v => !v.isNull)) := by
  have hfresh : Accumulator.Averages [] ((Memory.fresh 1).read 0) := Accumulator.averages_empty
  obtain ⟨returned, hreturned, hlast⟩ :=
    outcomes_averageOf rows type hcurrent hfresh Nat.one_pos hvalues hexact
  exact ⟨returned, hreturned, hlast hne⟩

end Fold

end EventQuery
