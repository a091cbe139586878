import EventQuery.Proofs.Eval.Typecheck
import Mathlib.Logic.Relation

/-!
Type soundness. A compiled expression gives values of its static type on events that conform to
their definitions, however many events it has seen before, and it fails only because of data. No
comparison that it comes to meets two values of different kinds.
-/

namespace EventQuery

open Run

/-- The evaluation of code on a frame, started with a memory. -/
structure Evaluation where
  code : Code
  frame : Frame
  memory : Memory

namespace Evaluation

/-- Evaluations start evaluations of the parts of their code. Operands are evaluated from the left,
each with the memory that the one before it leaves; the right operand of a conjunction is evaluated
where the left one is true, that of a disjunction where it is not, and a condition on the rows of a
source up to the first row that satisfies it. -/
inductive Calls (rows : SourceRows) : Evaluation → Evaluation → Prop where
  | andLeft {l r : Code} {f : Frame} {m : Memory} : Calls rows ⟨.and l r, f, m⟩ ⟨l, f, m⟩
  | andRight {l r : Code} {f : Frame} {m m' : Memory} {a : Value} :
      l.run rows f m = (.ok a, m') → a.isTrue = true → Calls rows ⟨.and l r, f, m⟩ ⟨r, f, m'⟩
  | orLeft {l r : Code} {f : Frame} {m : Memory} : Calls rows ⟨.or l r, f, m⟩ ⟨l, f, m⟩
  | orRight {l r : Code} {f : Frame} {m m' : Memory} {a : Value} :
      l.run rows f m = (.ok a, m') → a.isTrue = false → Calls rows ⟨.or l r, f, m⟩ ⟨r, f, m'⟩
  | not {e : Code} {f : Frame} {m : Memory} : Calls rows ⟨.not e, f, m⟩ ⟨e, f, m⟩
  | compareLeft {op : Comparison} {l r : Code} {f : Frame} {m : Memory} :
      Calls rows ⟨.compare op l r, f, m⟩ ⟨l, f, m⟩
  | compareRight {op : Comparison} {l r : Code} {f : Frame} {m m' : Memory} {a : Value} :
      l.run rows f m = (.ok a, m') → Calls rows ⟨.compare op l r, f, m⟩ ⟨r, f, m'⟩
  | arithLeft {op : Arithmetic} {l r : Code} {type : AttributeType} {f : Frame} {m : Memory} :
      Calls rows ⟨.arith op l r type, f, m⟩ ⟨l, f, m⟩
  | arithRight {op : Arithmetic} {l r : Code} {type : AttributeType} {f : Frame} {m m' : Memory}
      {a : Value} :
      l.run rows f m = (.ok a, m') → Calls rows ⟨.arith op l r type, f, m⟩ ⟨r, f, m'⟩
  | argument {fn : Function} {before after : List Code} {c : Code} {type : AttributeType}
      {f : Frame} {m m' : Memory} {vs : List Value} :
      Code.runAll rows before f m = (.ok vs, m') →
      Calls rows ⟨.call fn (before ++ c :: after) type, f, m⟩ ⟨c, f, m'⟩
  | folded {kind : FoldKind} {argument : Code} {type : AttributeType} {cell : Nat} {f : Frame}
      {m : Memory} :
      f.kind ≠ .reset → Calls rows ⟨.fold kind argument type cell, f, m⟩ ⟨argument, f, m⟩
  | row {condition : Code} {source : String} {slot : Nat} {before after : List Event} {e : Event}
      {f : Frame} {m m' : Memory} :
      rows source = before ++ e :: after →
      anyM (fun row => condition.test rows (f.setSlot slot (some row))) before m =
        (.ok false, m') →
      Calls rows ⟨.member condition source slot, f, m⟩ ⟨condition, f.setSlot slot (some e), m'⟩
  | isNull {e : Code} {f : Frame} {m : Memory} : Calls rows ⟨.isNull e, f, m⟩ ⟨e, f, m⟩

/-- One evaluation comes to another, through any number of calls. -/
def Reaches (rows : SourceRows) : Evaluation → Evaluation → Prop :=
  Relation.ReflTransGen (Calls rows)

/-- The code is typed for the frame and the memory. -/
def Typed (context : Context) (cells : Nat → AttributeType) (x : Evaluation) : Prop :=
  ∃ ds, x.code.Typed context cells ds ∧ x.frame.Conforms ds ∧ x.memory.Holds cells

variable {context : Context} {cells : Nat → AttributeType} {rows : SourceRows}
  {x y : Evaluation}

/-- What a typed evaluation calls is typed. -/
theorem Calls.typed (hcontext : context.IsTyped rows) (h : Calls rows x y)
    (hx : x.Typed context cells) : y.Typed context cells := by
  obtain ⟨ds, hc, hf, hm⟩ := hx
  cases h with
  | andLeft | orLeft => exact ⟨ds, hc.1, hf, hm⟩
  | andRight hrun | orRight hrun =>
      exact ⟨ds, hc.2, hf, (Code.ensures_run hcontext _ hc.1 hf).memory hm hrun⟩
  | not | isNull => exact ⟨ds, hc, hf, hm⟩
  | compareLeft | arithLeft => exact ⟨ds, hc.1, hf, hm⟩
  | compareRight hrun | arithRight hrun =>
      exact ⟨ds, hc.2.1, hf, (Code.ensures_run hcontext _ hc.1 hf).memory hm hrun⟩
  | argument hrun =>
      obtain ⟨hbefore, hargument⟩ := Code.AllTyped.of_append hc.1
      exact ⟨ds, hargument, hf, (Code.ensures_runAll hcontext _ hbefore hf).memory hm hrun⟩
  | folded => exact ⟨ds, hc.1, hf, hm⟩
  | row hsource hrun =>
      obtain ⟨rfl, d, hd, hcondition⟩ := hc
      have hconforms := hcontext.rows _ d hd
      rw [hsource] at hconforms
      -- The rows before this one have been tested, and have left a typed memory.
      refine ⟨ds ++ [d], hcondition, hf.extend (hconforms _ (by simp)), ?_⟩
      refine (ensures_anyM fun e he => ?_).memory hm hrun
      have hrow := hconforms e (List.mem_append_left _ he)
      exact Code.ensures_test hcontext hcondition (hf.extend hrow)

theorem Reaches.typed (hcontext : context.IsTyped rows) (h : Reaches rows x y)
    (hx : x.Typed context cells) : y.Typed context cells := by
  induction h with
  | refl => exact hx
  | tail _ hcall ih => exact hcall.typed hcontext ih

end Evaluation

/-- Values that a comparison tells apart by content or answers without it: one of them is null, or
both are of one kind. -/
def Value.Comparable (a b : Value) : Prop := a = .null ∨ b = .null ∨ a.kind = b.kind

theorem Value.kind_eq_of_type_eq {a b : Value} (h : a.type = b.type) : a.kind = b.kind := by
  cases a <;> cases b <;> first | rfl | cases h

theorem Value.kind_of_isNumeric {a : Value} (h : a.type.isNumeric = true) : a.kind = .numeric := by
  cases a <;> first | rfl | cases h

/-- Operands whose types a comparison accepts are comparable. -/
theorem Value.comparable_of_check {op : Comparison} {a b : Value} {s t : AttributeType}
    (h : Compile.checkComparable op s t = .ok ()) (ha : a.HasType s) (hb : b.HasType t) :
    a.Comparable b := by
  rcases ha with rfl | rfl
  · exact .inl rfl
  rcases hb with rfl | rfl
  · exact .inr (.inl rfl)
  unfold Compile.checkComparable at h
  split at h
  · rename_i haccepted
    simp only [Bool.or_eq_true, Bool.and_eq_true, decide_eq_true_eq] at haccepted
    rcases haccepted with ((ha | hb) | ⟨ha, hb⟩) | ⟨hsame, -⟩
    · exact .inl (Value.type_eq_object.1 ha)
    · exact .inr (.inl (Value.type_eq_object.1 hb))
    · exact .inr (.inr ((kind_of_isNumeric ha).trans (kind_of_isNumeric hb).symm))
    · exact .inr (.inr (kind_eq_of_type_eq hsame))
  · cases h

namespace Evaluation

variable {context : Context} {cells : Nat → AttributeType} {rows : SourceRows}

/-- A comparison of typed code meets comparable values. -/
theorem Typed.comparable (hcontext : context.IsTyped rows) {op : Comparison} {l r : Code}
    {f : Frame}
    {m m₁ m₂ : Memory} {a b : Value} (h : Typed context cells ⟨.compare op l r, f, m⟩)
    (hl : l.run rows f m = (.ok a, m₁)) (hr : r.run rows f m₁ = (.ok b, m₂)) : a.Comparable b := by
  obtain ⟨ds, ⟨hleft, hright, htypes⟩, hf, hm⟩ := h
  have hensures := Code.ensures_run hcontext l hleft hf
  exact Value.comparable_of_check htypes (hensures.result hm hl)
    ((Code.ensures_run hcontext r hright hf).result (hensures.memory hm hl) hr)

end Evaluation

namespace Evaluator

/-- The evaluator after it has evaluated a sequence of frames, each beside the rows of the sources
at that time. -/
def after (ev : Evaluator) (inputs : List (SourceRows × Frame)) : Evaluator :=
  inputs.foldl (fun ev input => (ev.eval input.1 input.2).2) ev

variable {context : Context} {e : Expr} {layout : Layout} {ev : Evaluator}

theorem code_after (ev : Evaluator) (inputs : List (SourceRows × Frame)) :
    (ev.after inputs).code = ev.code := by
  induction inputs generalizing ev with
  | nil => rfl
  | cons input rest ih => exact ih (ev.eval input.1 input.2).2

/-- On conforming inputs the accumulators of typed code go on to hold values of their types. -/
theorem holds_after {cells : Nat → AttributeType} {ds : List Definition}
    (hc : ev.code.Typed context cells ds) (hm : ev.memory.Holds cells)
    {inputs : List (SourceRows × Frame)}
    (hinputs : ∀ input ∈ inputs, context.IsTyped input.1 ∧ input.2.Conforms ds) :
    (ev.after inputs).memory.Holds cells := by
  induction inputs generalizing ev with
  | nil => exact hm
  | cons input rest ih =>
      obtain ⟨⟨hcontext, hf⟩, hrest⟩ := List.forall_mem_cons.1 hinputs
      exact ih hc ((Code.ensures_run hcontext ev.code hc hf) ev.memory hm).1 hrest

/-- Type soundness over the standard functions. After any sequence of conforming inputs, a compiled
expression gives a value of its static type on the next one, or it fails because of data, unless it
does not complete for an overflow of an aggregate. No comparison that it comes to meets values of
different kinds. -/
theorem type_sound (hstandard : context.functions ⊆ Function.standard)
    (hcompile : ofExpr context e layout = .ok ev)
    {inputs : List (SourceRows × Frame)}
    (hinputs : ∀ input ∈ inputs,
      input.1.Conforms context.source? ∧ input.2.Conforms layout.definitions)
    {rows : SourceRows} {f : Frame} (hrows : rows.Conforms context.source?)
    (hf : f.Conforms layout.definitions) :
    (∀ v, ((ev.after inputs).eval rows f).1 = .ok v → v = .null ∨ v.type = ev.code.type) ∧
      (∀ x, ((ev.after inputs).eval rows f).1 = .error x → x = .overflow ∨ x.IsDataFault) ∧
      ∀ op l r g m m₁ m₂ a b,
        Evaluation.Reaches rows ⟨ev.code, f, (ev.after inputs).memory⟩ ⟨.compare op l r, g, m⟩ →
        l.run rows g m = (.ok a, m₁) → r.run rows g m₁ = (.ok b, m₂) → a.Comparable b := by
  obtain ⟨c, count, hcode, rfl⟩ := Allot.finish_eq_ok.1 hcompile
  obtain ⟨-, cells, htyped⟩ := Compile.typed_of_code context e hcode
  have hc := htyped cells fun _ _ _ => rfl
  let fresh : Evaluator := ⟨c, .fresh count⟩
  have hcontext {rows : SourceRows} (hrows : rows.Conforms context.source?) :
      context.IsTyped rows := ⟨fun f hf => Function.isTyped_of_standard (hstandard hf), hrows⟩
  have hm : (fresh.after inputs).memory.Holds cells :=
    holds_after hc (Memory.holds_fresh cells count) fun input hinput =>
      (hinputs input hinput).imp_left hcontext
  have hresult := ((Code.ensures_run (hcontext hrows) c hc hf) _ hm).2
  have heval : ((fresh.after inputs).eval rows f).1 =
      (c.run rows f (fresh.after inputs).memory).1 := by
    rw [eval, Stateful.run, code_after]
    rfl
  rw [heval]
  refine ⟨fun v hv => ?_, fun x hx => ?_, fun op l r g m m₁ m₂ a b hreaches hl hr => ?_⟩
  · rw [hv] at hresult
    exact hresult
  · rw [hx] at hresult
    exact hresult
  · exact (hreaches.typed (hcontext hrows) ⟨layout.definitions, hc, hf, hm⟩).comparable
      (hcontext hrows) hl hr

/-! ### The greatest price so far -/

namespace Prices

def slots : Layout := .single ⟨"Price", [⟨"price", .int⟩]⟩

/-- The condition `max(price) > 10 / price`. -/
def peak : Expr :=
  .compare .greater (.call none "max" [.named "price"])
    (.arith .divide (.const (.int 10)) (.named "price"))

def evaluator : Evaluator :=
  ⟨.compare .greater (.fold .max (.read 0 0 .int) .int 0)
    (.arith .divide (.const (.int 10)) (.read 0 0 .int) .int), .fresh 1⟩

theorem ofExpr_peak : ofExpr .standard peak slots = .ok evaluator := rfl

def price (i : Int32) : (SourceRows × Frame) := (fun _ => [], .single (.current 0 [.int i]))

theorem price_conforms (i : Int32) :
    (price i).1.Conforms Context.standard.source? ∧ (price i).2.Conforms slots.definitions := by
  refine ⟨nofun, fun slot d e hd he => ?_⟩
  match slot with
  | 0 =>
      cases hd
      cases he
      intro position a ha
      match position with
      | 0 =>
          cases ha
          exact .inr rfl
      | position + 1 => cases ha
  | slot + 1 => cases hd

end Prices

/-- After a price of five the condition holds of a price of three, and its operands are integers. -/
theorem type_sound_prices :
    ((Prices.evaluator.after [Prices.price 5]).eval (Prices.price 3).1 (Prices.price 3).2).1 =
        .ok (.bool true) ∧
      (Value.bool true = .null ∨ (Value.bool true).type = Prices.evaluator.code.type) ∧
      (Value.int 5).Comparable (.int 3) := by
  have hresult : ((Prices.evaluator.after [Prices.price 5]).eval (Prices.price 3).1
      (Prices.price 3).2).1 = .ok (.bool true) := by
    decide +kernel
  have hleft : (Code.fold .max (.read 0 0 .int) .int 0).run (Prices.price 3).1 (Prices.price 3).2
      (Prices.evaluator.after [Prices.price 5]).memory =
        (.ok (.int 5), ⟨[⟨2, 0, .zero, [(.int 3, 1), (.int 5, 1)]⟩]⟩) := by
    decide +kernel
  have hright : (Code.arith .divide (.const (.int 10)) (.read 0 0 .int) .int).run
      (Prices.price 3).1 (Prices.price 3).2 ⟨[⟨2, 0, .zero, [(.int 3, 1), (.int 5, 1)]⟩]⟩ =
        (.ok (.int 3), ⟨[⟨2, 0, .zero, [(.int 3, 1), (.int 5, 1)]⟩]⟩) := by
    decide +kernel
  have hinputs : ∀ input ∈ [Prices.price 5],
      input.1.Conforms Context.standard.source? ∧ input.2.Conforms Prices.slots.definitions :=
    fun input hinput => List.mem_singleton.1 hinput ▸ Prices.price_conforms 5
  have hsound :=
    type_sound (List.Subset.refl Context.standard.functions) Prices.ofExpr_peak hinputs
      (Prices.price_conforms 3).1
    (Prices.price_conforms 3).2
  refine ⟨hresult, hsound.1 _ hresult, ?_⟩
  exact hsound.2.2 _ _ _ _ _ _ _ _ _ .refl hleft hright

end Evaluator

end EventQuery
