import EventQuery.Proofs.Eval.Failure
import EventQuery.Proofs.Eval.Independence
import EventQuery.Proofs.Eval.Typecheck

/-!
Names and the places that they are bound to. `Expr.occurrences` lists the variables of an expression
with the layouts that they stand in, and `reads_of_code` says that compiled code reads what they are
bound to there. A name that a layout answers to keeps its meaning within an `in` condition, so a
source is known by its name just where the layout around the condition does not answer to it
(`slot_of_occurrence`). `run_given` replaces the slot of a source by the row that it holds.
-/

namespace EventQuery

namespace Layout

variable {l : Layout} {d : Definition} {name : String} {slot : Nat} {v : Variable} {b : Binding}

/-- A name keeps its slot when slots are added. -/
theorem slotOf_of_prefix {l' : Layout} (h : l.slots <+: l'.slots)
    (hslot : l.slotOf name = some slot) : l'.slotOf name = some slot := by
  obtain ⟨added, hadded⟩ := h
  rw [slotOf] at hslot ⊢
  rw [← hadded, List.findIdx?_append, hslot]
  rfl

/-- The name of an added slot means that slot, unless it has a meaning already. -/
theorem slotOf_extend (l : Layout) (d : Definition) (name : String) :
    (l.extend d name).slotOf name = some ((l.slotOf name).getD l.slots.length) := by
  rw [slotOf, extend, List.findIdx?_append]
  cases hslot : l.slotOf name with
  | some slot =>
      rw [slotOf] at hslot
      rw [hslot]
      rfl
  | none =>
      rw [slotOf] at hslot
      rw [hslot]
      simp [Slot.answersTo, List.findIdx?_cons]

theorem slotOf_lt (h : l.slotOf name = some slot) : slot < l.slots.length := by
  obtain ⟨hlt, -⟩ := List.findIdx?_eq_some_iff_getElem.1 h
  exact hlt

/-- A qualified variable is bound to the slot that its qualifier means. -/
theorem slot_of_qualified (hstream : v.stream = some name) (h : l.resolve v = .ok b) :
    l.slotOf name = some b.slot := by
  unfold resolve at h
  rw [hstream] at h
  dsimp only at h
  cases hslot : l.slotOf name with
  | none => rw [hslot] at h; cases h
  | some slot =>
      rw [hslot] at h
      dsimp only at h
      split at h
      · rename_i hbind
        cases h
        rw [(bindIn_eq_some hbind).1]
      · cases h

end Layout

namespace Expr

mutual

/-- The variables of an expression with the layouts that they stand in. The condition of an `in`
stands in the layout with a slot for the row of the source. -/
def occurrences (context : Context) : Expr → Layout → List (Layout × Variable)
  | .const _, _ | .slotEmpty _, _ => []
  | .var v, layout => [(layout, v)]
  | .and l r, layout | .or l r, layout | .compare _ l r, layout | .arith _ l r, layout =>
    occurrences context l layout ++ occurrences context r layout
  | .not e, layout | .isNull e, layout => occurrences context e layout
  | .call _ _ args, layout => allOccurrences context args layout
  | .member e source, layout =>
    match context.source? source with
    | none => []
    | some d => occurrences context e (layout.extend d source)

/-- The variables of a list of arguments. -/
def allOccurrences (context : Context) : List Expr → Layout → List (Layout × Variable)
  | [], _ => []
  | e :: es, layout => occurrences context e layout ++ allOccurrences context es layout

end

section Occurrences

variable {context : Context} {p : Layout × Variable}

mutual

/-- Within an expression slots are added only. -/
theorem prefix_of_occurrence :
    ∀ (e : Expr) {layout : Layout}, p ∈ e.occurrences context layout → layout.slots <+: p.1.slots
  | .const _, _, h | .slotEmpty _, _, h => by cases h
  | .var v, layout, h => by
      obtain rfl := List.mem_singleton.1 h
      exact List.prefix_rfl
  | .and l r, layout, h | .or l r, layout, h
  | .compare _ l r, layout, h | .arith _ l r, layout, h => by
      rcases List.mem_append.1 h with h | h
      · exact prefix_of_occurrence l h
      · exact prefix_of_occurrence r h
  | .not e, layout, h | .isNull e, layout, h => prefix_of_occurrence e h
  | .call _ _ args, layout, h => prefix_of_allOccurrences args h
  | .member e source, layout, h => by
      rw [occurrences] at h
      split at h
      · cases h
      · exact (List.prefix_append _ _).trans (prefix_of_occurrence e h)

theorem prefix_of_allOccurrences :
    ∀ (es : List Expr) {layout : Layout}, p ∈ allOccurrences context es layout →
      layout.slots <+: p.1.slots
  | [], _, h => by cases h
  | e :: es, layout, h => by
      rcases List.mem_append.1 h with h | h
      · exact prefix_of_occurrence e h
      · exact prefix_of_allOccurrences es h

end

/-- Within a condition on the rows of a source, at any depth, a variable qualified by the source is
bound to the slot that has its name already, and to the slot of the row where there is none. -/
theorem slot_of_occurrence {e : Expr} {layout : Layout} {d : Definition} {source : String}
    {b : Binding} (hp : p ∈ e.occurrences context (layout.extend d source))
    (hstream : p.2.stream = some source) (hb : p.1.resolve p.2 = .ok b) :
    b.slot = (layout.slotOf source).getD layout.slots.length := by
  have hslot := Layout.slotOf_of_prefix (prefix_of_occurrence e hp)
    (layout.slotOf_extend d source)
  exact Option.some.inj ((Layout.slot_of_qualified hstream hb).symm.trans hslot)

/-- A variable that is bound to the slot of a row is an attribute of the source. -/
theorem position_of_occurrence {e : Expr} {layout : Layout} {d : Definition} {source : String}
    {b : Binding} (hp : p ∈ e.occurrences context (layout.extend d source))
    (hb : p.1.resolve p.2 = .ok b) (hslot : b.slot = layout.slots.length) :
    d.position p.2.name = some b.position := by
  obtain ⟨s, hs, hposition, -⟩ := Layout.resolve_eq_ok hb
  obtain ⟨added, hadded⟩ := prefix_of_occurrence e hp
  have hrow : p.1.slots[b.slot]? = some ⟨d, some source⟩ := by
    rw [← hadded, hslot, Layout.extend, List.append_assoc,
      List.getElem?_append_right (Nat.le_refl _)]
    simp
  obtain rfl := Option.some.inj (hs.symm.trans hrow)
  exact hposition

/-- Within a condition on the rows of a source, a variable qualified by the source is bound to the
row just where the layout around the condition has no slot of that name. -/
theorem bound_to_row_iff {e : Expr} {layout : Layout} {d : Definition} {source : String}
    {b : Binding} (hp : p ∈ e.occurrences context (layout.extend d source))
    (hstream : p.2.stream = some source) (hb : p.1.resolve p.2 = .ok b) :
    b.slot = layout.slots.length ↔ layout.slotOf source = none := by
  have hslot := slot_of_occurrence hp hstream hb
  cases hclash : layout.slotOf source with
  | none =>
      rw [hclash] at hslot
      exact iff_of_true hslot rfl
  | some other =>
      -- The slot that has the name stands before that of the row.
      have hlt := Layout.slotOf_lt hclash
      rw [hclash] at hslot
      exact iff_of_false (Nat.ne_of_lt (hslot ▸ hlt)) nofun

end Occurrences

end Expr

namespace Code

mutual

/-- The places that code reads, in the order of the variables. -/
def reads : Code → List Binding
  | .const _ | .count _ | .slotEmpty _ => []
  | .read slot position type => [⟨slot, position, type⟩]
  | .and l r | .or l r | .compare _ l r | .arith _ l r _ => reads l ++ reads r
  | .not e | .isNull e | .member e _ _ | .fold _ e _ _ => reads e
  | .call _ args _ => allReads args

/-- The places that a list of arguments reads. -/
def allReads : List Code → List Binding
  | [] => []
  | c :: cs => reads c ++ allReads cs

end

end Code

namespace Compile

open Allot

theorem reads_of_aggregate {kind : AggregateKind} {args : List Code} {n m : Nat} {c : Code}
    (h : aggregate kind args n = .ok (c, m)) : c.reads = Code.allReads args := by
  unfold aggregate at h
  split at h
  · obtain ⟨cell, k, -, h⟩ := bind_eq_ok.1 h
    obtain ⟨rfl, -⟩ := pure_eq_ok.1 h
    rfl
  · obtain ⟨type, k, -, hfold⟩ := bind_eq_ok.1 h
    obtain ⟨cell, k', -, hfold⟩ := bind_eq_ok.1 hfold
    obtain ⟨rfl, -⟩ := pure_eq_ok.1 hfold
    exact (List.append_nil _).symm
  · exact absurd h throw_eq_ok.1

mutual

/-- Compiled code reads the places that the variables are bound to in their layouts. -/
theorem reads_of_code (context : Context) :
    ∀ (e : Expr) {layout : Layout} {n m : Nat} {c : Code},
      code context e layout n = .ok (c, m) →
      c.reads.map Except.ok = (e.occurrences context layout).map fun p => p.1.resolve p.2
  | .const v, _, n, m, c, h => by
      obtain ⟨rfl, -⟩ := pure_eq_ok.1 h
      rfl
  | .var v, layout, n, m, c, h => by
      obtain ⟨b, hb, rfl, -⟩ := code_var.1 h
      simp [Code.reads, Expr.occurrences, hb]
  | .and l r, _, n, m, c, h => by
      obtain ⟨l', r', k, hl, hr, -, -, rfl⟩ := code_and.1 h
      rw [Code.reads, Expr.occurrences, List.map_append, List.map_append,
        reads_of_code context l hl, reads_of_code context r hr]
  | .or l r, _, n, m, c, h => by
      obtain ⟨l', r', k, hl, hr, -, -, rfl⟩ := code_or.1 h
      rw [Code.reads, Expr.occurrences, List.map_append, List.map_append,
        reads_of_code context l hl, reads_of_code context r hr]
  | .not e, _, n, m, c, h => by
      obtain ⟨e', he, -, rfl⟩ := code_not.1 h
      rw [Code.reads, Expr.occurrences, reads_of_code context e he]
  | .compare op l r, _, n, m, c, h => by
      obtain ⟨l', r', k, hl, hr, -, rfl⟩ := code_compare.1 h
      rw [Code.reads, Expr.occurrences, List.map_append, List.map_append,
        reads_of_code context l hl, reads_of_code context r hr]
  | .arith op l r, _, n, m, c, h => by
      obtain ⟨l', r', k, type, hl, hr, -, rfl⟩ := code_arith.1 h
      rw [Code.reads, Expr.occurrences, List.map_append, List.map_append,
        reads_of_code context l hl, reads_of_code context r hr]
  | .call space name args, layout, n, m, c, h => by
      cases hkind : aggregateOf space name with
      | none =>
          obtain ⟨f, args', type, -, -, hargs, -, rfl⟩ := (code_call hkind).1 h
          rw [Code.reads, Expr.occurrences, reads_of_codes context args hargs]
      | some kind =>
          obtain ⟨args', k, hargs, haggregate⟩ := code_aggregate hkind h
          rw [reads_of_aggregate haggregate, Expr.occurrences, reads_of_codes context args hargs]
  | .member e source, layout, n, m, c, h => by
      obtain ⟨d, e', hd, he, -, rfl⟩ := code_member.1 h
      rw [Code.reads, Expr.occurrences, hd, reads_of_code context e he]
  | .isNull e, _, n, m, c, h => by
      obtain ⟨e', he, rfl⟩ := code_isNull.1 h
      rw [Code.reads, Expr.occurrences, reads_of_code context e he]
  | .slotEmpty stream, _, n, m, c, h => by
      obtain ⟨slot, -, rfl, -⟩ := code_slotEmpty.1 h
      rfl

theorem reads_of_codes (context : Context) :
    ∀ (es : List Expr) {layout : Layout} {n m : Nat} {cs : List Code},
      codes context es layout n = .ok (cs, m) →
      (Code.allReads cs).map Except.ok =
        (Expr.allOccurrences context es layout).map fun p => p.1.resolve p.2
  | [], _, n, m, cs, h => by
      obtain ⟨rfl, -⟩ := pure_eq_ok.1 h
      rfl
  | e :: es, _, n, m, cs, h => by
      obtain ⟨c, cs', k, hc, hcs, rfl⟩ := codes_cons.1 h
      rw [Code.allReads, Expr.allOccurrences, List.map_append, List.map_append,
        reads_of_code context e hc, reads_of_codes context es hcs]

end

end Compile

/-! ### Rows in place of their slot -/

namespace Code

mutual

/-- The code with the attributes of a row in place of what it reads from a slot. -/
def given (slot : Nat) (row : Event) : Code → Code
  | .const v => .const v
  | .read s position type => if s = slot then .const (row.get position) else .read s position type
  | .and l r => .and (given slot row l) (given slot row r)
  | .or l r => .or (given slot row l) (given slot row r)
  | .not e => .not (given slot row e)
  | .compare op l r => .compare op (given slot row l) (given slot row r)
  | .arith op l r type => .arith op (given slot row l) (given slot row r) type
  | .call f args type => .call f (allGiven slot row args) type
  | .count cell => .count cell
  | .fold kind argument type cell => .fold kind (given slot row argument) type cell
  | .member condition source s => .member (given slot row condition) source s
  | .isNull e => .isNull (given slot row e)
  | .slotEmpty s => if s = slot then .const (.bool false) else .slotEmpty s

/-- A list of arguments with the attributes of a row in place of a slot. -/
def allGiven (slot : Nat) (row : Event) : List Code → List Code
  | [] => []
  | c :: cs => given slot row c :: allGiven slot row cs

end

section Given

variable {slot : Nat} {row : Event}

mutual

/-- Nothing is read from the slot any more. -/
theorem ignores_given : ∀ c : Code, (c.given slot row).ignores slot = true
  | .const _ | .count _ => rfl
  | .read s _ _ | .slotEmpty s => by
      by_cases h : s = slot <;> simp [given, ignores, h]
  | .and l r | .or l r | .compare _ l r | .arith _ l r _ => by
      rw [given, ignores, ignores_given l, ignores_given r]
      rfl
  | .not e | .isNull e | .member e _ _ | .fold _ e _ _ => by
      rw [given, ignores, ignores_given e]
  | .call _ args _ => by rw [given, ignores, allIgnore_allGiven args]

theorem allIgnore_allGiven : ∀ cs : List Code, allIgnore slot (allGiven slot row cs) = true
  | [] => rfl
  | c :: cs => by
      rw [allGiven, allIgnore, ignores_given c, allIgnore_allGiven cs]
      rfl

end

variable {context : Context} {cells : Nat → AttributeType} {rows : SourceRows}

mutual

/-- It makes no difference to typed code whether it finds a row in a slot or is given its
attributes: the rows of the sources that it searches itself go into later slots. -/
theorem run_given :
    ∀ (c : Code) {ds : List Definition} {f : Frame}, c.Typed context cells ds → slot < ds.length →
      f.slot slot = some row → (c.given slot row).run rows f = c.run rows f
  | .const _, _, _, _, _, _ | .count _, _, _, _, _, _ => rfl
  | .read s position type, ds, f, _, _, hf => by
      by_cases h : s = slot
      · rw [given, if_pos h, run, run, h, hf]
        rfl
      · rw [given, if_neg h]
  | .slotEmpty s, ds, f, _, _, hf => by
      by_cases h : s = slot
      · rw [given, if_pos h, run, run, h, hf]
        rfl
      · rw [given, if_neg h]
  | .and l r, ds, f, hc, hlt, hf | .or l r, ds, f, hc, hlt, hf => by
      simp only [given, run, run_given l hc.1 hlt hf, run_given r hc.2 hlt hf]
  | .compare _ l r, ds, f, hc, hlt, hf | .arith _ l r _, ds, f, hc, hlt, hf => by
      simp only [given, run, run_given l hc.1 hlt hf, run_given r hc.2.1 hlt hf]
  | .not e, ds, f, hc, hlt, hf | .isNull e, ds, f, hc, hlt, hf => by
      rw [Typed] at hc
      simp only [given, run, run_given e hc hlt hf]
  | .call fn args type, ds, f, hc, hlt, hf => by
      simp only [given, run, runAll_allGiven args hc.1 hlt hf]
  | .fold kind argument type cell, ds, f, hc, hlt, hf => by
      simp only [given, run, run_given argument hc.1 hlt hf]
  | .member condition source s, ds, f, hc, hlt, hf => by
      obtain ⟨rfl, d, -, hcondition⟩ := hc
      have hrow (e : Event) : (condition.given slot row).run rows (f.setSlot ds.length (some e)) =
          condition.run rows (f.setSlot ds.length (some e)) := by
        refine run_given condition hcondition (by simp; omega) ?_
        rw [Frame.slot_setSlot, if_neg (Nat.ne_of_lt hlt), hf]
      simp only [given, run, hrow]

theorem runAll_allGiven :
    ∀ (cs : List Code) {ds : List Definition} {f : Frame}, AllTyped context cells cs ds →
      slot < ds.length → f.slot slot = some row →
      runAll rows (allGiven slot row cs) f = runAll rows cs f
  | [], _, _, _, _, _ => rfl
  | c :: cs, ds, f, hcs, hlt, hf => by
      simp only [allGiven, runAll, run_given c hcs.1 hlt hf, runAll_allGiven cs hcs.2 hlt hf]

end

/-- Test a condition on a row that is put into a slot, the attributes of the slot being read from
the row. -/
def onRow (rows : SourceRows) (condition : Code) (slot : Nat) (f : Frame) (row : Event) :
    Run EvalError Bool :=
  (condition.given slot row).test rows (f.setSlot slot (some row))

end Given

end Code

end EventQuery
