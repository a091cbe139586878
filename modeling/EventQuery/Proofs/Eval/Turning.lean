import EventQuery.Proofs.Eval.Acceptance
import EventQuery.Proofs.Value.Order
import Mathlib.Data.List.Forall2

/-!
Conditions whose comparisons are turned round. `Expr.Turned` relates a condition to those that are
made from it by exchanging the sides of some comparisons and taking the converse operators. A turned
comparison evaluates its sides in the other order, so two such conditions may fail differently; they
succeed alike, and `interchangeable_of_code` says so of their code.
-/

namespace EventQuery

/-! ### Computations that succeed alike -/

/-- Two computations that leave the memory alone and succeed with one value, or both fail. -/
inductive Run.Alike {ε α : Type} : Run ε α → Run ε α → Prop
  | ok (a : α) : Run.Alike (pure a) (pure a)
  | error (x x' : ε) : Run.Alike (throw x) (throw x')

namespace Run

variable {ε ε' α β γ : Type} {x x' : Run ε α} {y y' : Run ε β}

namespace Alike

theorem ofExcept (r : Except ε α) : Alike (Run.ofExcept r) (Run.ofExcept r) := by
  cases r with
  | ok a => exact .ok a
  | error e => exact .error e e

theorem bind {k k' : α → Run ε β} (hx : Alike x x') (hk : ∀ a, Alike (k a) (k' a)) :
    Alike (x >>= k) (x' >>= k') := by
  cases hx with
  | ok a =>
      rw [pure_bind, pure_bind]
      exact hk a
  | error e e' => exact .error e e'

theorem map (hx : Alike x x') (f : α → β) :
    Alike (do return f (← x) : Run ε β) (do return f (← x')) := hx.bind fun a => .ok (f a)

/-- Two computations succeed with the same values in either order. -/
theorem swap {k k' : α → β → Run ε γ} (hx : Alike x x') (hy : Alike y y')
    (hk : ∀ a b, Alike (k a b) (k' a b)) :
    Alike (do let a ← x; let b ← y; k a b) (do let b ← y'; let a ← x'; k' a b) := by
  cases hx with
  | ok a =>
      simp only [pure_bind]
      exact hy.bind (hk a)
  | error e e' =>
      cases hy with
      | ok b => exact .error e e'
      | error e₁ e₁' => exact .error e e₁'

theorem mapError (hx : Alike x x') (f : ε → ε') : Alike (Run.mapError f x) (Run.mapError f x') := by
  cases hx with
  | ok a => exact .ok a
  | error e e' => exact .error (f e) (f e')

theorem anyM {test test' : α → Run ε Bool} (h : ∀ a, Alike (test a) (test' a)) (as : List α) :
    Alike (Run.anyM test as) (Run.anyM test' as) := by
  induction as with
  | nil => exact .ok false
  | cons a rest ih =>
      refine (h a).bind fun passes => ?_
      cases passes
      · exact ih
      · exact .ok true

theorem filterM {test test' : α → Run ε Bool} (h : ∀ a, Alike (test a) (test' a)) (as : List α) :
    Alike (Run.filterM test as) (Run.filterM test' as) := by
  induction as with
  | nil => exact .ok []
  | cons a rest ih => exact (h a).bind fun passes => ih.map fun others =>
      if passes then a :: others else others

/-- What the one computation returns the other returns too, whatever memory either starts from. -/
theorem fst_eq_ok_iff (hx : Alike x x') (m m' : Memory) (a : α) :
    (x m).1 = .ok a ↔ (x' m').1 = .ok a := by
  cases hx with
  | ok b => exact Iff.rfl
  | error e e' => exact iff_of_false nofun nofun

end Alike

end Run

namespace Comparison

@[simp] theorem converse_converse (op : Comparison) : op.converse.converse = op := by
  cases op <;> rfl

@[simp] theorem isEquality_converse (op : Comparison) : op.converse.isEquality = op.isEquality := by
  cases op <;> rfl

end Comparison

/-! ### Conditions -/

mutual

/-- Some comparisons of a condition are turned round: their sides are exchanged, and their operator
is the converse one. -/
inductive Expr.Turned : Expr → Expr → Prop
  | const (v : Value) : Expr.Turned (.const v) (.const v)
  | var (v : Variable) : Expr.Turned (.var v) (.var v)
  | and {l l' r r' : Expr} (left : Expr.Turned l l') (right : Expr.Turned r r') :
      Expr.Turned (.and l r) (.and l' r')
  | or {l l' r r' : Expr} (left : Expr.Turned l l') (right : Expr.Turned r r') :
      Expr.Turned (.or l r) (.or l' r')
  | not {e e' : Expr} (inner : Expr.Turned e e') : Expr.Turned (.not e) (.not e')
  | compare (op : Comparison) {l l' r r' : Expr} (left : Expr.Turned l l')
      (right : Expr.Turned r r') : Expr.Turned (.compare op l r) (.compare op l' r')
  | turn (op : Comparison) {l l' r r' : Expr} (left : Expr.Turned l l')
      (right : Expr.Turned r r') : Expr.Turned (.compare op l r) (.compare op.converse r' l')
  | arith (op : Arithmetic) {l l' r r' : Expr} (left : Expr.Turned l l')
      (right : Expr.Turned r r') : Expr.Turned (.arith op l r) (.arith op l' r')
  | call (space : Option String) (name : String) {es es' : List Expr}
      (args : Expr.AllTurned es es') : Expr.Turned (.call space name es) (.call space name es')
  | member {e e' : Expr} (inner : Expr.Turned e e') (source : String) :
      Expr.Turned (.member e source) (.member e' source)
  | isNull {e e' : Expr} (inner : Expr.Turned e e') : Expr.Turned (.isNull e) (.isNull e')
  | slotEmpty (stream : String) : Expr.Turned (.slotEmpty stream) (.slotEmpty stream)

/-- Some comparisons in a list of arguments are turned round. -/
inductive Expr.AllTurned : List Expr → List Expr → Prop
  | nil : Expr.AllTurned [] []
  | cons {e e' : Expr} {es es' : List Expr} (head : Expr.Turned e e')
      (tail : Expr.AllTurned es es') : Expr.AllTurned (e :: es) (e' :: es')

end

namespace Expr

mutual

theorem Turned.symm : ∀ {e e' : Expr}, e.Turned e' → e'.Turned e
  | _, _, .const v => .const v
  | _, _, .var v => .var v
  | _, _, .and hl hr => .and hl.symm hr.symm
  | _, _, .or hl hr => .or hl.symm hr.symm
  | _, _, .not h => .not h.symm
  | _, _, .compare op hl hr => .compare op hl.symm hr.symm
  | _, _, .turn op hl hr => by
      have hback := Turned.turn op.converse hr.symm hl.symm
      rwa [Comparison.converse_converse] at hback
  | _, _, .arith op hl hr => .arith op hl.symm hr.symm
  | _, _, .call space name hargs => .call space name hargs.symm
  | _, _, .member h source => .member h.symm source
  | _, _, .isNull h => .isNull h.symm
  | _, _, .slotEmpty stream => .slotEmpty stream

theorem AllTurned.symm : ∀ {es es' : List Expr}, AllTurned es es' → AllTurned es' es
  | _, _, .nil => .nil
  | _, _, .cons h hs => .cons h.symm hs.symm

end

mutual

theorem Turned.isAggregateFree_eq :
    ∀ {e e' : Expr}, e.Turned e' → e.isAggregateFree = e'.isAggregateFree
  | _, _, .const _ | _, _, .var _ | _, _, .slotEmpty _ => rfl
  | _, _, .and hl hr | _, _, .or hl hr | _, _, .compare _ hl hr | _, _, .arith _ hl hr => by
      simp only [isAggregateFree, hl.isAggregateFree_eq, hr.isAggregateFree_eq]
  | _, _, .turn _ hl hr => by
      simp only [isAggregateFree, hl.isAggregateFree_eq, hr.isAggregateFree_eq, Bool.and_comm]
  | _, _, .not h | _, _, .member h _ | _, _, .isNull h => h.isAggregateFree_eq
  | _, _, .call _ _ hargs => by simp only [isAggregateFree, hargs.allAggregateFree_eq]

theorem AllTurned.allAggregateFree_eq :
    ∀ {es es' : List Expr}, AllTurned es es' → allAggregateFree es = allAggregateFree es'
  | _, _, .nil => rfl
  | _, _, .cons h hs => by
      simp only [allAggregateFree, h.isAggregateFree_eq, hs.allAggregateFree_eq]

end

theorem AllTurned.length_eq : ∀ {es es' : List Expr}, AllTurned es es' → es.length = es'.length
  | _, _, .nil => rfl
  | _, _, .cons _ hs => by rw [List.length_cons, List.length_cons, hs.length_eq]

end Expr

/-! ### Code -/

namespace Code

/-- Two codes of one type that succeed alike on every frame. -/
structure Interchangeable (c c' : Code) : Prop where
  type_eq : c.type = c'.type
  run_alike : ∀ rows f, (c.run rows f).Alike (c'.run rows f)

namespace Interchangeable

variable {c c' l l' r r' : Code} {cs cs' : List Code}

/-- Code without aggregates can be exchanged for itself. -/
theorem of_isStateless (h : c.isStateless = true) : Interchangeable c c where
  type_eq := rfl
  run_alike rows f := by
    rw [run_eq_value rows c f h]
    exact .ofExcept _

theorem test_alike (h : Interchangeable c c') (rows : SourceRows) (f : Frame) :
    (c.test rows f).Alike (c'.test rows f) := (h.run_alike rows f).map _

theorem and (hl : Interchangeable l l') (hr : Interchangeable r r') :
    Interchangeable (.and l r) (.and l' r') where
  type_eq := rfl
  run_alike rows f := by
    refine (hl.run_alike rows f).bind fun a => ?_
    cases a.isTrue
    · exact .ok _
    · exact (hr.run_alike rows f).map _

theorem or (hl : Interchangeable l l') (hr : Interchangeable r r') :
    Interchangeable (.or l r) (.or l' r') where
  type_eq := rfl
  run_alike rows f := by
    refine (hl.run_alike rows f).bind fun a => ?_
    cases a.isTrue
    · exact (hr.run_alike rows f).map _
    · exact .ok _

theorem not (h : Interchangeable c c') : Interchangeable (.not c) (.not c') where
  type_eq := rfl
  run_alike rows f := (h.run_alike rows f).map _

theorem compare (op : Comparison) (hl : Interchangeable l l') (hr : Interchangeable r r') :
    Interchangeable (.compare op l r) (.compare op l' r') where
  type_eq := rfl
  run_alike rows f := (hl.run_alike rows f).bind fun _ => (hr.run_alike rows f).map _

/-- A turned comparison evaluates its sides in the other order and compares them alike. -/
theorem turn (op : Comparison) (hl : Interchangeable l l') (hr : Interchangeable r r') :
    Interchangeable (.compare op l r) (.compare op.converse r' l') where
  type_eq := rfl
  run_alike rows f := by
    refine Run.Alike.swap (hl.run_alike rows f) (hr.run_alike rows f) fun a b => ?_
    rw [op.holds_converse]
    exact .ok _

theorem arith (op : Arithmetic) (hl : Interchangeable l l') (hr : Interchangeable r r')
    (type : AttributeType) : Interchangeable (.arith op l r type) (.arith op l' r' type) where
  type_eq := rfl
  run_alike rows f := (hl.run_alike rows f).bind fun _ => (hr.run_alike rows f).bind fun _ =>
    .ofExcept _

theorem isNull (h : Interchangeable c c') : Interchangeable (.isNull c) (.isNull c') where
  type_eq := rfl
  run_alike rows f := (h.run_alike rows f).map _

theorem member (h : Interchangeable c c') (source : String) (slot : Nat) :
    Interchangeable (.member c source slot) (.member c' source slot) where
  type_eq := rfl
  run_alike rows f :=
    (Run.Alike.anyM (fun row => (h.run_alike rows (f.setSlot slot (some row))).map _)
      (rows source)).map _

theorem types_eq (h : List.Forall₂ Interchangeable cs cs') : cs.map type = cs'.map type := by
  induction h with
  | nil => rfl
  | cons head _ ih => rw [List.map_cons, List.map_cons, head.type_eq, ih]

theorem runAll_alike (h : List.Forall₂ Interchangeable cs cs') (rows : SourceRows) (f : Frame) :
    (runAll rows cs f).Alike (runAll rows cs' f) := by
  induction h with
  | nil => exact .ok []
  | cons head _ ih => exact (head.run_alike rows f).bind fun _ => ih.map _

theorem call (fn : Function) (h : List.Forall₂ Interchangeable cs cs') (type : AttributeType) :
    Interchangeable (.call fn cs type) (.call fn cs' type) where
  type_eq := rfl
  run_alike rows f :=
    (runAll_alike h rows f).bind fun vs => (Run.Alike.ofExcept (fn.apply vs)).map _

end Interchangeable

end Code

namespace Compile

open Allot Code

theorem checkComparable_converse (op : Comparison) (left right : AttributeType) :
    checkComparable op.converse right left = .ok () ↔ checkComparable op left right = .ok () := by
  unfold checkComparable
  rw [Comparison.isEquality_converse]
  grind

mutual

/-- A turned condition compiles where the condition does, to code that can be exchanged for it. -/
theorem interchangeable_of_code (context : Context) :
    ∀ (e : Expr) {e' : Expr} {layout : Layout} {n m : Nat} {c : Code}, e.isAggregateFree = true →
      e.Turned e' → code context e layout n = .ok (c, m) →
      ∃ c', Constant (code context e' layout) c' ∧ c.Interchangeable c'
  | .const v, _, layout, n, m, c, hfree, .const _, hc => by
      have hcompiles := compiles_of_code context _ hfree hc
      exact ⟨c, hcompiles.constant, .of_isStateless hcompiles.stateless⟩
  | .var v, _, layout, n, m, c, hfree, .var _, hc => by
      have hcompiles := compiles_of_code context _ hfree hc
      exact ⟨c, hcompiles.constant, .of_isStateless hcompiles.stateless⟩
  | .slotEmpty stream, _, layout, n, m, c, hfree, .slotEmpty _, hc => by
      have hcompiles := compiles_of_code context _ hfree hc
      exact ⟨c, hcompiles.constant, .of_isStateless hcompiles.stateless⟩
  | .and l r, _, layout, n, m, c, hfree, .and hl hr, hc => by
      simp only [Expr.isAggregateFree, Bool.and_eq_true] at hfree
      obtain ⟨l₁, r₁, k, hlc, hrc, hlt, hrt, rfl⟩ := code_and.1 hc
      obtain ⟨l₂, hl₂, hleft⟩ := interchangeable_of_code context l hfree.1 hl hlc
      obtain ⟨r₂, hr₂, hright⟩ := interchangeable_of_code context r hfree.2 hr hrc
      exact ⟨.and l₂ r₂, fun k => code_and.2
        ⟨l₂, r₂, k, hl₂ k, hr₂ k, hleft.type_eq ▸ hlt, hright.type_eq ▸ hrt, rfl⟩,
        hleft.and hright⟩
  | .or l r, _, layout, n, m, c, hfree, .or hl hr, hc => by
      simp only [Expr.isAggregateFree, Bool.and_eq_true] at hfree
      obtain ⟨l₁, r₁, k, hlc, hrc, hlt, hrt, rfl⟩ := code_or.1 hc
      obtain ⟨l₂, hl₂, hleft⟩ := interchangeable_of_code context l hfree.1 hl hlc
      obtain ⟨r₂, hr₂, hright⟩ := interchangeable_of_code context r hfree.2 hr hrc
      exact ⟨.or l₂ r₂, fun k => code_or.2
        ⟨l₂, r₂, k, hl₂ k, hr₂ k, hleft.type_eq ▸ hlt, hright.type_eq ▸ hrt, rfl⟩,
        hleft.or hright⟩
  | .not e, _, layout, n, m, c, hfree, .not h, hc => by
      obtain ⟨e₁, hec, ht, rfl⟩ := code_not.1 hc
      obtain ⟨e₂, he₂, hinner⟩ := interchangeable_of_code context e hfree h hec
      exact ⟨.not e₂, fun k => code_not.2 ⟨e₂, he₂ k, hinner.type_eq ▸ ht, rfl⟩, hinner.not⟩
  | .compare op l r, _, layout, n, m, c, hfree, .compare _ hl hr, hc => by
      simp only [Expr.isAggregateFree, Bool.and_eq_true] at hfree
      obtain ⟨l₁, r₁, k, hlc, hrc, ht, rfl⟩ := code_compare.1 hc
      obtain ⟨l₂, hl₂, hleft⟩ := interchangeable_of_code context l hfree.1 hl hlc
      obtain ⟨r₂, hr₂, hright⟩ := interchangeable_of_code context r hfree.2 hr hrc
      rw [hleft.type_eq, hright.type_eq] at ht
      exact ⟨.compare op l₂ r₂, fun k => code_compare.2 ⟨l₂, r₂, k, hl₂ k, hr₂ k, ht, rfl⟩,
        hleft.compare op hright⟩
  | .compare op l r, _, layout, n, m, c, hfree, .turn _ hl hr, hc => by
      simp only [Expr.isAggregateFree, Bool.and_eq_true] at hfree
      obtain ⟨l₁, r₁, k, hlc, hrc, ht, rfl⟩ := code_compare.1 hc
      obtain ⟨l₂, hl₂, hleft⟩ := interchangeable_of_code context l hfree.1 hl hlc
      obtain ⟨r₂, hr₂, hright⟩ := interchangeable_of_code context r hfree.2 hr hrc
      rw [hleft.type_eq, hright.type_eq, ← checkComparable_converse] at ht
      exact ⟨.compare op.converse r₂ l₂,
        fun k => code_compare.2 ⟨r₂, l₂, k, hr₂ k, hl₂ k, ht, rfl⟩, hleft.turn op hright⟩
  | .arith op l r, _, layout, n, m, c, hfree, .arith _ hl hr, hc => by
      simp only [Expr.isAggregateFree, Bool.and_eq_true] at hfree
      obtain ⟨l₁, r₁, k, type, hlc, hrc, ht, rfl⟩ := code_arith.1 hc
      obtain ⟨l₂, hl₂, hleft⟩ := interchangeable_of_code context l hfree.1 hl hlc
      obtain ⟨r₂, hr₂, hright⟩ := interchangeable_of_code context r hfree.2 hr hrc
      rw [hleft.type_eq, hright.type_eq] at ht
      exact ⟨.arith op l₂ r₂ type,
        fun k => code_arith.2 ⟨l₂, r₂, k, type, hl₂ k, hr₂ k, ht, rfl⟩, hleft.arith op hright type⟩
  | .call space name es, _, layout, n, m, c, hfree, .call _ _ hargs, hc => by
      simp only [Expr.isAggregateFree, Bool.and_eq_true, Option.isNone_iff_eq_none] at hfree
      obtain ⟨f, args, type, hf, harity, hcs, ht, rfl⟩ := (code_call hfree.1).1 hc
      obtain ⟨args₂, hcs₂, hall⟩ := interchangeable_of_codes context es hfree.2 hargs hcs
      rw [hargs.length_eq] at harity
      rw [Interchangeable.types_eq hall] at ht
      exact ⟨.call f args₂ type,
        fun k => (code_call hfree.1).2 ⟨f, args₂, type, hf, harity, hcs₂ k, ht, rfl⟩,
        .call f hall type⟩
  | .member e source, _, layout, n, m, c, hfree, .member h _, hc => by
      obtain ⟨d, e₁, hd, hec, ht, rfl⟩ := code_member.1 hc
      obtain ⟨e₂, he₂, hinner⟩ := interchangeable_of_code context e hfree h hec
      exact ⟨.member e₂ source layout.slots.length,
        fun k => code_member.2 ⟨d, e₂, hd, he₂ k, hinner.type_eq ▸ ht, rfl⟩,
        hinner.member source _⟩
  | .isNull e, _, layout, n, m, c, hfree, .isNull h, hc => by
      obtain ⟨e₁, hec, rfl⟩ := code_isNull.1 hc
      obtain ⟨e₂, he₂, hinner⟩ := interchangeable_of_code context e hfree h hec
      exact ⟨.isNull e₂, fun k => code_isNull.2 ⟨e₂, he₂ k, rfl⟩, hinner.isNull⟩

theorem interchangeable_of_codes (context : Context) :
    ∀ (es : List Expr) {es' : List Expr} {layout : Layout} {n m : Nat} {cs : List Code},
      Expr.allAggregateFree es = true → Expr.AllTurned es es' →
      codes context es layout n = .ok (cs, m) →
      ∃ cs', Constant (codes context es' layout) cs' ∧ List.Forall₂ Interchangeable cs cs'
  | [], _, layout, n, m, cs, _, .nil, hcs => by
      obtain ⟨rfl, -⟩ := pure_eq_ok.1 hcs
      exact ⟨[], constant_pure _, .nil⟩
  | e :: es, _, layout, n, m, cs, hfree, .cons h hs, hcs => by
      simp only [Expr.allAggregateFree, Bool.and_eq_true] at hfree
      obtain ⟨c₁, cs₁, k, hc, hrest, rfl⟩ := codes_cons.1 hcs
      obtain ⟨c₂, hc₂, hhead⟩ := interchangeable_of_code context e hfree.1 h hc
      obtain ⟨cs₂, hcs₂, htail⟩ := interchangeable_of_codes context es hfree.2 hs hrest
      exact ⟨c₂ :: cs₂, fun k => codes_cons.2 ⟨c₂, cs₂, k, hc₂ k, hcs₂ k, rfl⟩,
        .cons hhead htail⟩

end

end Compile

end EventQuery
