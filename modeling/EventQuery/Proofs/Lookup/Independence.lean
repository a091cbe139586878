import EventQuery.Proofs.Lookup.Binding

/-!
Independence of the candidate. A lookup evaluates the parts of a condition that are classified as
independent once, for all stored events; `eval_of_independent` says which parts these are and that
it may.
-/

namespace EventQuery

namespace Evaluator

variable {context : Context} {capability : Capability} {info : MatchLayout} {e : Expr}
  {cl : Classified} {ev : Evaluator}

/-- Code without aggregates that ignores a slot gives the same on any two contents of the slot. -/
theorem eval_setSlot_congr {slot : Nat} (hstateless : ev.code.isStateless = true)
    (hignores : ev.code.ignores slot = true) (rows : SourceRows) (f : Frame) (a b : Option Event) :
    ev.eval rows (f.setSlot slot a) = ev.eval rows (f.setSlot slot b) := by
  have hagree : Frame.AgreeOff slot (f.setSlot slot a) (f.setSlot slot b) := by
    intro i hi
    rw [f.agreeOff_setSlot slot a i hi, f.agreeOff_setSlot slot b i hi]
  have hrun : ev.code.run rows (f.setSlot slot a) = ev.code.run rows (f.setSlot slot b) := by
    rw [Code.run_eq_value rows _ _ hstateless, Code.run_eq_value rows _ _ hstateless,
      Code.value_congr rows _ hignores hagree]
  rw [eval, eval, Stateful.run, Stateful.run, hrun]

/-- A condition without aggregates is classified as independent of the store just where its code
reads nothing from the slot of the store. Then it gives the same value, or fails with the same
error, whatever that slot holds; the functions that it calls are any whose values depend on their
arguments alone. -/
theorem eval_of_independent (hfree : e.isAggregateFree = true)
    (hclassify : classify context capability info e = .ok cl)
    (hcompile : ofExpr context e info.layout = .ok ev) :
    (cl.scope = .independent ↔ ∀ b ∈ ev.code.reads, b.slot ≠ info.storeSlot) ∧
      (cl.scope = .independent → ∀ (rows : SourceRows) (memory : Memory) (f : Frame)
        (a b : Option Event),
          eval { ev with memory := memory } rows (f.setSlot info.storeSlot a) =
            eval { ev with memory := memory } rows (f.setSlot info.storeSlot b)) := by
  obtain ⟨c, count, hcode, rfl⟩ := Allot.finish_eq_ok.1 hcompile
  refine ⟨Compile.independent_iff_reads hcode hclassify, fun hscope rows memory f a b => ?_⟩
  have hstateless := (Compile.compiles_of_code context e hfree hcode).stateless
  have hignores := (ignores_iff_independent e hfree hcode hclassify).2 hscope
  exact eval_setSlot_congr hstateless hignores rows f a b

end Evaluator

namespace Parts

/-- An order in the first slot, a stored quote in the second. -/
def quotes : MatchLayout :=
  .join ⟨"Order", [⟨"x", .int⟩, ⟨"y", .int⟩]⟩ ⟨"Quote", [⟨"price", .int⟩]⟩ (some "t")

/-- A registered function: the share of a number of parts, which fails in its own words. -/
def share : Function where
  name := "part:share"
  arity := .exactly 2
  resultType _ := .ok .int
  apply
    | [.int whole, .int parts] =>
      if parts = 0 then .error (.invalidArgument "part:share" (.custom "no parts"))
      else .ok (.int (whole / parts))
    | _ => .ok .null

def sharing : Context := { context with functions := Function.register context.functions share }

/-- The condition `Part.x > part:share(Order.x, Order.y) in Part`. -/
def above : Expr :=
  .member (.compare .greater (.var ⟨"x", some "Part"⟩)
    (.call (some "part") "share" [.var ⟨"x", some "Order"⟩, .var ⟨"y", some "Order"⟩])) "Part"

def aboveCode : Code :=
  .member (.compare .greater (.read 2 0 .int)
    (.call share [.read 0 0 .int, .read 0 1 .int] .int)) "Part" 2

end Parts

/-- A search of parts by a registered function does not see the quote, also where the function
fails. -/
theorem Evaluator.eval_of_independent_parts :
    classify Parts.sharing (Holder.unindexed Parts.definition).capability Parts.quotes Parts.above =
        .ok (.independent Parts.above) ∧
      ofExpr Parts.sharing Parts.above Parts.quotes.layout = .ok ⟨Parts.aboveCode, .fresh 0⟩ ∧
      ∀ quote : Event,
        (eval ⟨Parts.aboveCode, .fresh 0⟩ Parts.rows
            ((Frame.single (.current 0 [.int 9, .int 3])).setSlot 1 (some quote))).1 =
          .ok (.bool true) ∧
        (eval ⟨Parts.aboveCode, .fresh 0⟩ Parts.rows
            ((Frame.single (.current 0 [.int 9, .int 0])).setSlot 1 (some quote))).1 =
          .error (.invalidArgument "part:share" (.custom "no parts")) := by
  have hclassify : classify Parts.sharing (Holder.unindexed Parts.definition).capability
      Parts.quotes Parts.above = .ok (.independent Parts.above) := rfl
  have hcompile : ofExpr Parts.sharing Parts.above Parts.quotes.layout =
      .ok ⟨Parts.aboveCode, .fresh 0⟩ := rfl
  have hsame (f : Frame) (quote : Event) :=
    (eval_of_independent rfl hclassify hcompile).2 rfl Parts.rows (.fresh 0) f (some quote) none
  refine ⟨hclassify, hcompile, fun quote => ⟨?_, ?_⟩⟩
  · exact (congrArg Prod.fst (hsame _ quote)).trans (by decide +kernel)
  · exact (congrArg Prod.fst (hsame _ quote)).trans (by decide +kernel)

end EventQuery
