import EventQuery.Proofs.Eval.Binding
import EventQuery.Proofs.Lookup.Classification

/-!
What `in` conditions test. `member_tests_rows` says that a compiled condition on the rows of a
source searches them for one that makes the condition true, and that the compiler and the
classification bind the variables in it alike. A variable with the name of the source is read from
the row as long as no slot around the condition has that name; `member_misses_rows` is a search of a
table in itself, where it is not.
-/

namespace EventQuery

section Classification

variable {context : Context} {capability : Capability} {slot : Nat}

open Classified

/-- No variable of a list of occurrences is bound to a slot. -/
def Avoid (slot : Nat) (occurrences : List (Layout × Variable)) : Prop :=
  ∀ p ∈ occurrences, ∀ b, p.1.resolve p.2 = .ok b → b.slot ≠ slot

theorem avoid_append {ps qs : List (Layout × Variable)} :
    Avoid slot (ps ++ qs) ↔ Avoid slot ps ∧ Avoid slot qs := List.forall_mem_append

mutual

/-- A condition is independent of the store just where none of its variables is bound to the slot of
the store, each in the layout that it stands in. -/
theorem independent_iff_avoid :
    ∀ (e : Expr) {layout : Layout} {cl : Classified},
      classifyIn context capability slot e layout = .ok cl →
      (cl.scope = .independent ↔ Avoid slot (e.occurrences context layout))
  | .const v, _, cl, h => by
      cases h
      exact iff_of_true rfl nofun
  | .var v, layout, cl, h => by
      rw [classifyIn] at h
      cases hb : layout.resolve v with
      | error e => rw [hb] at h; cases h
      | ok b =>
          rw [hb] at h
          dsimp only at h
          have havoid : Avoid slot [(layout, v)] ↔ b.slot ≠ slot := by
            simp [Avoid, hb]
          rw [Expr.occurrences, havoid]
          split at h
          · rename_i hslot
            cases h
            exact iff_of_true rfl hslot
          · rename_i hslot
            split at h <;> cases h <;> exact iff_of_false nofun hslot
  | .and l r, layout, cl, h => by
      obtain ⟨left, hleft, right, hright, rfl⟩ := classifyIn_and.1 h
      rw [scope_conjunction_iff, independent_iff_avoid l hleft, independent_iff_avoid r hright,
        Expr.occurrences, avoid_append]
  | .or l r, layout, cl, h => by
      obtain ⟨left, hleft, right, hright, rfl⟩ := classifyIn_or.1 h
      rw [scope_disjunction_iff, independent_iff_avoid l hleft, independent_iff_avoid r hright,
        Expr.occurrences, avoid_append]
  | .not e, layout, cl, h => by
      obtain ⟨inner, hinner, rfl⟩ := classifyIn_not.1 h
      rw [scope_negation_iff, independent_iff_avoid e hinner, Expr.occurrences]
  | .compare op l r, layout, cl, h => by
      obtain ⟨left, hleft, right, hright, rfl⟩ := classifyIn_compare.1 h
      rw [scope_comparison_iff, independent_iff_avoid l hleft, independent_iff_avoid r hright,
        Expr.occurrences, avoid_append]
  | .arith op l r, layout, cl, h => by
      obtain ⟨left, hleft, right, hright, rfl⟩ := classifyIn_arith.1 h
      rw [scope_whole_iff, Bool.and_eq_true, decide_eq_true_eq, decide_eq_true_eq,
        independent_iff_avoid l hleft, independent_iff_avoid r hright, Expr.occurrences,
        avoid_append]
  | .call space name args, layout, cl, h => by
      obtain ⟨independent, hargs, rfl⟩ := classifyIn_call.1 h
      rw [scope_whole_iff, allIndependent_iff_avoid args hargs, Expr.occurrences]
  | .member e source, layout, cl, h => by
      obtain ⟨d, inner, hd, hinner, rfl⟩ := classifyIn_member.1 h
      rw [scope_whole_iff, decide_eq_true_eq, independent_iff_avoid e hinner, Expr.occurrences, hd]
  | .isNull e, layout, cl, h => by
      obtain ⟨inner, hinner, rfl⟩ := classifyIn_isNull.1 h
      rw [scope_nullTest_iff, independent_iff_avoid e hinner, Expr.occurrences]
  | .slotEmpty stream, _, cl, h => by cases h

theorem allIndependent_iff_avoid :
    ∀ (es : List Expr) {layout : Layout} {b : Bool},
      allIndependent context capability slot es layout = .ok b →
      (b = true ↔ Avoid slot (Expr.allOccurrences context es layout))
  | [], _, b, h => by
      cases h
      exact iff_of_true rfl nofun
  | e :: es, layout, b, h => by
      obtain ⟨first, hfirst, rest, hrest, rfl⟩ := allIndependent_cons.1 h
      rw [Bool.and_eq_true, decide_eq_true_eq, independent_iff_avoid e hfirst,
        allIndependent_iff_avoid es hrest, Expr.allOccurrences, avoid_append]

end

end Classification

namespace Compile

section Member

variable {context : Context} {e : Expr} {source : String} {d : Definition} {layout : Layout}
  {n m : Nat} {c : Code}

/-- The classification and the compiler agree on the slots that a condition reads. -/
theorem independent_iff_reads {capability : Capability} {slot : Nat} {cl : Classified}
    (hc : code context e layout n = .ok (c, m))
    (hcl : classifyIn context capability slot e layout = .ok cl) :
    cl.scope = .independent ↔ ∀ b ∈ c.reads, b.slot ≠ slot := by
  have hmem (b : Binding) : b ∈ c.reads ↔
      ∃ p ∈ e.occurrences context layout, p.1.resolve p.2 = .ok b := by
    rw [← List.mem_map, ← reads_of_code context e hc]
    simp
  rw [independent_iff_avoid e hcl]
  constructor
  · intro havoid b hb
    obtain ⟨p, hp, hresolve⟩ := (hmem b).1 hb
    exact havoid p hp b hresolve
  · exact fun hslots p hp b hresolve => hslots b ((hmem b).2 ⟨p, hp, hresolve⟩)

/-- A compiled condition on the rows of a source, tested row by row. -/
theorem run_member (hc : code context e (layout.extend d source) n = .ok (c, m)) (rows : SourceRows)
    (f : Frame) :
    (Code.member c source layout.slots.length).run rows f = do
      return .bool (← Run.anyM (c.onRow rows layout.slots.length f) (rows source)) := by
  obtain ⟨-, cells, hcells⟩ := typed_of_code context e hc
  have htyped := hcells cells fun _ _ _ => rfl
  have hlt : layout.slots.length < (layout.extend d source).definitions.length := by
    simp [Layout.definitions, Layout.extend]
  have hrow (row : Event) : c.onRow rows layout.slots.length f row =
      c.test rows (f.setSlot layout.slots.length (some row)) := by
    rw [Code.onRow, Code.test, Code.test,
      Code.run_given c htyped hlt (by rw [Frame.slot_setSlot, if_pos rfl])]
  rw [funext hrow]
  rfl

/-- A compiled `in` condition is true where some row of the source makes it true, the attributes of
the row being read from the row, and no row before it fails. The compiler and the classification
bind its variables alike, and those with the name of the source are read from the row just where no
slot of the layout has that name. -/
theorem member_tests_rows (hd : context.source? source = some d)
    (hc : code context (.member e source) layout n = .ok (c, m)) :
    ∃ condition, c = .member condition source layout.slots.length ∧
      condition.reads.map Except.ok =
        (e.occurrences context (layout.extend d source)).map (fun p => p.1.resolve p.2) ∧
      (∀ capability storeSlot cl,
        classifyIn context capability storeSlot (.member e source) layout = .ok cl →
          (cl.scope = .independent ↔ ∀ b ∈ condition.reads, b.slot ≠ storeSlot)) ∧
      (∀ p ∈ e.occurrences context (layout.extend d source), p.2.stream = some source →
        ∀ b, p.1.resolve p.2 = .ok b →
          (b.slot = layout.slots.length ↔ layout.slotOf source = none) ∧
          (layout.slotOf source = none → d.position p.2.name = some b.position)) ∧
      (∀ row, (condition.given layout.slots.length row).ignores layout.slots.length = true) ∧
      ∀ rows f k k', c.run rows f k = (.ok (.bool true), k') ↔
        ∃ before row after k₁, rows source = before ++ row :: after ∧
          Run.anyM (condition.onRow rows layout.slots.length f) before k = (.ok false, k₁) ∧
          condition.onRow rows layout.slots.length f row k₁ = (.ok true, k') := by
  obtain ⟨d', condition, hd', hcondition, -, rfl⟩ := code_member.1 hc
  obtain rfl : d' = d := Option.some.inj (hd'.symm.trans hd)
  refine ⟨condition, rfl, reads_of_code context e hcondition, ?_, ?_,
    fun row => Code.ignores_given condition, ?_⟩
  · intro capability storeSlot cl hcl
    have hreads := independent_iff_reads hc hcl
    rwa [Code.reads] at hreads
  · intro p hp hstream b hb
    have hrow := Expr.bound_to_row_iff hp hstream hb
    exact ⟨hrow, fun hclear => Expr.position_of_occurrence hp hb (hrow.2 hclear)⟩
  · intro rows f k k'
    rw [run_member hcondition, ← Run.anyM_eq_true]
    generalize Run.anyM (condition.onRow rows layout.slots.length f) (rows source) = search
    constructor
    · intro h
      obtain ⟨found, k₁, hsearch, h⟩ := Run.of_run_bind h
      cases h
      exact hsearch
    · exact fun h => Run.bind_of_ok h

end Member

end Compile

/-! ### A table that is searched in itself -/

namespace Parts

def definition : Definition := ⟨"Part", [⟨"x", .int⟩]⟩

def context : Context := Context.standard.addSource definition

/-- The condition `Part.x > 5 in Part`. -/
def search : Expr := .member (.compare .greater (.var ⟨"x", some "Part"⟩) (.const (.int 5))) "Part"

def rows : SourceRows := fun _ => [.current 0 [.int 7]]

/-- The layout of an order that is matched with parts. -/
def orders : Layout := .single ⟨"Order", [⟨"y", .int⟩]⟩

/-- A frame of one slot, whose event has the attribute one. -/
def frame : Frame := .single (.current 0 [.int 1])

def code : Code := .member (.compare .greater (.read 1 0 .int) (.const (.int 5))) "Part" 1

end Parts

namespace Compile

/-- Next to an order the search is that of the parts. -/
theorem member_tests_rows_parts :
    Parts.orders.slotOf "Part" = none ∧
      Parts.context.source? "Part" = some Parts.definition ∧
      Compile.code Parts.context Parts.search Parts.orders 0 = .ok (Parts.code, 0) ∧
      (Parts.code.run Parts.rows Parts.frame (.fresh 0)).1 = .ok (.bool true) := by
  have hsource : Parts.context.source? "Part" = some Parts.definition := rfl
  have hcode : Compile.code Parts.context Parts.search Parts.orders 0 = .ok (Parts.code, 0) := rfl
  obtain ⟨condition, hcondition, -, -, -, -, hrows⟩ := member_tests_rows hsource hcode
  cases hcondition
  have hrun := (hrows Parts.rows Parts.frame (.fresh 0) (.fresh 0)).2
    ⟨[], _, [], .fresh 0, rfl, rfl, by decide +kernel⟩
  exact ⟨rfl, hsource, hcode, congrArg Prod.fst hrun⟩

/-- In a frame of parts the name of the source means the part of the frame, which is tested instead
of the row that would make the condition true, and a search of the parts among themselves is not
taken for one that is independent of the candidate. -/
theorem member_misses_rows :
    ∃ c, Evaluator.ofExpr Parts.context Parts.search (.single Parts.definition) =
        .ok ⟨c, .fresh 0⟩ ∧
      c = .member (.compare .greater (.read 0 0 .int) (.const (.int 5))) "Part" 1 ∧
      (c.run Parts.rows Parts.frame (.fresh 0)).1 = .ok (.bool false) ∧
      (∃ row ∈ Parts.rows "Part", Comparison.greater.holds (row.get 0) (.int 5) = true) ∧
      ∃ e, classify Parts.context (Holder.unindexed Parts.definition).capability
        (.storeOnly Parts.definition) Parts.search = .ok (.exhaustive e) :=
  ⟨_, rfl, rfl, by decide +kernel, ⟨_, List.mem_singleton_self _, by decide +kernel⟩, _, rfl⟩

end Compile

end EventQuery
