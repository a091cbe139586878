import EventQuery.Eval.Compile
import EventQuery.Proofs.Eval.Stateless

/-!
Compilation, taken apart: what each kind of expression compiles to. An expression without aggregates
allots no cell, so it compiles to the same code wherever the compilation is started, and the code is
stateless.
-/

namespace EventQuery

namespace Allot

variable {ε ε' α β : Type} {n : Nat}

theorem bind_eq_ok {x : Allot ε α} {f : α → Allot ε β} {p : β × Nat} :
    (x >>= f) n = .ok p ↔ ∃ a m, x n = .ok (a, m) ∧ f a m = .ok p := by
  change (x n >>= fun q => f q.1 q.2) = .ok p ↔ _
  cases x n <;> simp [bind, Except.bind, Prod.ext_iff, and_assoc]

theorem pure_eq_ok {a b : α} {m : Nat} :
    (pure a : Allot ε α) n = .ok (b, m) ↔ b = a ∧ m = n := by
  change Except.ok (a, n) = .ok (b, m) ↔ _
  rw [Except.ok.injEq, Prod.mk.injEq, eq_comm, @eq_comm _ n]

theorem throw_eq_ok {e : ε} {p : α × Nat} : (throw e : Allot ε α) n = .ok p ↔ False := by
  change Except.error e = .ok p ↔ _
  simp

theorem lift_eq_ok {x : Except ε α} {p : α × Nat} :
    (liftM x : Allot ε α) n = .ok p ↔ x = .ok p.1 ∧ p.2 = n := by
  change (x >>= fun a => Except.ok (a, n)) = .ok p ↔ _
  obtain ⟨a, m⟩ := p
  cases x <;> simp [bind, Except.bind, eq_comm]

theorem mapError_eq_ok {g : ε → ε'} {x : Allot ε α} {p : α × Nat} :
    mapError g x n = .ok p ↔ x n = .ok p := by
  unfold mapError
  cases x n <;> simp

theorem finish_eq_ok {x : Allot ε α} {s : Stateful α} :
    x.finish = .ok s ↔ ∃ a count, x 0 = .ok (a, count) ∧ s = ⟨a, .fresh count⟩ := by
  unfold finish
  cases x 0 <;> simp [Prod.ext_iff, and_assoc, eq_comm]

/-- The compilation gives one result and allots no cell. -/
def Constant (x : Allot ε α) (a : α) : Prop := ∀ n, x n = .ok (a, n)

theorem constant_pure (a : α) : Constant (pure a : Allot ε α) a := fun _ => rfl

theorem Constant.unique {x : Allot ε α} {a b : α} {m : Nat} (hx : Constant x a)
    (h : x n = .ok (b, m)) :
    b = a ∧ m = n := by
  rw [hx n] at h
  cases h
  exact ⟨rfl, rfl⟩

end Allot

namespace Expr

mutual

/-- No aggregate is called. -/
def isAggregateFree : Expr → Bool
  | .const _ | .var _ | .slotEmpty _ => true
  | .and l r | .or l r | .compare _ l r | .arith _ l r => isAggregateFree l && isAggregateFree r
  | .not e | .member e _ | .isNull e => isAggregateFree e
  | .call space name args => (Compile.aggregateOf space name).isNone && allAggregateFree args

/-- No argument of a list calls an aggregate. -/
def allAggregateFree : List Expr → Bool
  | [] => true
  | e :: es => isAggregateFree e && allAggregateFree es

end

end Expr

namespace Layout

variable {l : Layout} {v : Variable} {b : Binding} {name : String} {slot : Nat}

theorem bindIn_eq_some (h : l.bindIn name slot = some b) :
    b.slot = slot ∧ ∃ s, l.slots[slot]? = some s ∧ s.definition.position name = some b.position ∧
      (s.definition.attributes[b.position]?).map (·.type) = some b.type := by
  simp only [bindIn, Option.bind_eq_bind, Option.bind_eq_some_iff, Option.some.injEq] at h
  obtain ⟨s, hs, position, hposition, found, hfound, rfl⟩ := h
  exact ⟨rfl, s, hs, hposition, by rw [hfound]; rfl⟩

/-- A variable is bound to a place that the definition of its slot has under its name. -/
theorem resolve_eq_ok (h : l.resolve v = .ok b) :
    ∃ s, l.slots[b.slot]? = some s ∧ s.definition.position v.name = some b.position ∧
      (s.definition.attributes[b.position]?).map (·.type) = some b.type := by
  obtain ⟨slot, hbind⟩ : ∃ slot, l.bindIn v.name slot = some b := by
    unfold resolve at h
    dsimp only at h
    split at h
    · split at h
      · cases h
      · split at h
        · cases h
          exact ⟨_, ‹_›⟩
        · cases h
    · split at h
      · cases h
        obtain ⟨slot, -, hslot⟩ := List.exists_of_findSome?_eq_some ‹_›
        exact ⟨slot, hslot⟩
      · cases h
  obtain ⟨rfl, s, hs⟩ := bindIn_eq_some hbind
  exact ⟨s, hs⟩

/-- In a layout of one slot a variable is bound to the attribute of its name. -/
theorem resolve_single {d : Definition} (h : (single d).resolve v = .ok b) :
    b.slot = 0 ∧ d.position v.name = some b.position ∧
      (d.attributes[b.position]?).map (·.type) = some b.type := by
  obtain ⟨s, hs, hposition, htype⟩ := resolve_eq_ok h
  obtain ⟨hslot, rfl⟩ : b.slot = 0 ∧ s = ⟨d, none⟩ := by
    cases hb : b.slot with
    | zero => simpa [single, hb, eq_comm] using hs
    | succ n => simp [single, hb] at hs
  exact ⟨hslot, hposition, htype⟩

end Layout

namespace Compile

open Allot

variable {context : Context} {layout : Layout} {n m : Nat} {c : Code} {args : List Code}

section Inversion

/-! ### What a compiled expression is made of -/

-- The equations of the compiler are derived once for all kinds of expressions.
attribute [local simp] code codes condition

theorem code_var {v : Variable} :
    code context (.var v) layout n = .ok (c, m) ↔
      ∃ b, layout.resolve v = .ok b ∧ c = .read b.slot b.position b.type ∧ m = n := by
  simp only [code]
  cases layout.resolve v <;> simp [pure_eq_ok, throw_eq_ok]

theorem code_and {l r : Expr} :
    code context (.and l r) layout n = .ok (c, m) ↔
      ∃ l' r' k, code context l layout n = .ok (l', k) ∧ code context r layout k = .ok (r', m) ∧
        expectBool l'.type = .ok () ∧ expectBool r'.type = .ok () ∧ c = .and l' r' := by
  simp only [code, bind_eq_ok, lift_eq_ok, pure_eq_ok]
  grind

theorem code_or {l r : Expr} :
    code context (.or l r) layout n = .ok (c, m) ↔
      ∃ l' r' k, code context l layout n = .ok (l', k) ∧ code context r layout k = .ok (r', m) ∧
        expectBool l'.type = .ok () ∧ expectBool r'.type = .ok () ∧ c = .or l' r' := by
  simp only [code, bind_eq_ok, lift_eq_ok, pure_eq_ok]
  grind

theorem code_not {e : Expr} :
    code context (.not e) layout n = .ok (c, m) ↔
      ∃ e', code context e layout n = .ok (e', m) ∧ expectBool e'.type = .ok () ∧ c = .not e' := by
  simp only [code, bind_eq_ok, lift_eq_ok, pure_eq_ok]
  grind

theorem code_compare {op : Comparison} {l r : Expr} :
    code context (.compare op l r) layout n = .ok (c, m) ↔
      ∃ l' r' k, code context l layout n = .ok (l', k) ∧ code context r layout k = .ok (r', m) ∧
        checkComparable op l'.type r'.type = .ok () ∧ c = .compare op l' r' := by
  simp only [code, bind_eq_ok, lift_eq_ok, pure_eq_ok]
  grind

theorem code_arith {op : Arithmetic} {l r : Expr} :
    code context (.arith op l r) layout n = .ok (c, m) ↔
      ∃ l' r' k type, code context l layout n = .ok (l', k) ∧
        code context r layout k = .ok (r', m) ∧
        arithType op l'.type r'.type = .ok type ∧ c = .arith op l' r' type := by
  simp only [code, bind_eq_ok, lift_eq_ok, pure_eq_ok]
  grind

theorem code_isNull {e : Expr} :
    code context (.isNull e) layout n = .ok (c, m) ↔
      ∃ e', code context e layout n = .ok (e', m) ∧ c = .isNull e' := by
  simp only [code, bind_eq_ok, pure_eq_ok]
  grind

theorem code_member {e : Expr} {source : String} :
    code context (.member e source) layout n = .ok (c, m) ↔
      ∃ d e', context.source? source = some d ∧
        code context e (layout.extend d source) n = .ok (e', m) ∧
        expectBool e'.type = .ok () ∧ c = .member e' source layout.slots.length := by
  simp only [code]
  cases context.source? source with
  | none => simp [throw_eq_ok]
  | some d =>
      simp only [bind_eq_ok, lift_eq_ok, pure_eq_ok]
      grind

theorem code_slotEmpty {stream : String} :
    code context (.slotEmpty stream) layout n = .ok (c, m) ↔
      ∃ slot, layout.slotOf stream = some slot ∧ c = .slotEmpty slot ∧ m = n := by
  simp only [code]
  cases layout.slotOf stream <;> simp [pure_eq_ok, throw_eq_ok]

/-- A call of a name that means no aggregate. -/
theorem code_call {space : Option String} {name : String} {args : List Expr}
    (hfree : aggregateOf space name = none) :
    code context (.call space name args) layout n = .ok (c, m) ↔
      ∃ f args' type, Function.find? context.functions (Expr.qualifiedName space name) = some f ∧
        f.arity.check f.name args.length = .ok () ∧ codes context args layout n = .ok (args', m) ∧
        f.resultType (args'.map Code.type) = .ok type ∧ c = .call f args' type := by
  simp only [code, hfree]
  cases Function.find? context.functions (Expr.qualifiedName space name) with
  | none => simp [throw_eq_ok]
  | some f =>
      simp only [bind_eq_ok, lift_eq_ok, pure_eq_ok]
      grind

theorem codes_cons {e : Expr} {es : List Expr} {cs : List Code} :
    codes context (e :: es) layout n = .ok (cs, m) ↔
      ∃ c cs' k, code context e layout n = .ok (c, k) ∧ codes context es layout k = .ok (cs', m) ∧
        cs = c :: cs' := by
  simp only [codes, bind_eq_ok, pure_eq_ok]
  grind

theorem codes_length {es : List Expr} (h : codes context es layout n = .ok (args, m)) :
    args.length = es.length := by
  induction es generalizing n args with
  | nil =>
      obtain ⟨rfl, -⟩ := pure_eq_ok.1 h
      rfl
  | cons e es ih =>
      obtain ⟨_, cs, _, -, hcs, rfl⟩ := codes_cons.1 h
      rw [List.length_cons, List.length_cons, ih hcs]

/-- A call of a name that means an aggregate. -/
theorem code_aggregate {space : Option String} {name : String} {es : List Expr}
    {kind : AggregateKind} (hkind : aggregateOf space name = some kind)
    (h : code context (.call space name es) layout n = .ok (c, m)) :
    ∃ args k, codes context es layout n = .ok (args, k) ∧ aggregate kind args k = .ok (c, m) := by
  simp only [code, hkind] at h
  split at h
  · exact absurd h throw_eq_ok.1
  · exact bind_eq_ok.1 h

/-- An aggregate takes one cell for itself. -/
theorem aggregate_eq_ok {kind : AggregateKind} (h : aggregate kind args n = .ok (c, m)) :
    m = n + 1 ∧ (kind = .count ∧ c = .count n ∨ ∃ fold argument type, kind = .fold fold ∧
      args = [argument] ∧ fold.resultType argument.type = .ok type ∧
      c = .fold fold argument type n) := by
  unfold aggregate at h
  split at h
  · obtain ⟨cell, _, hcell, h⟩ := bind_eq_ok.1 h
    obtain ⟨rfl, rfl⟩ := Prod.mk.inj (Except.ok.inj hcell)
    obtain ⟨rfl, rfl⟩ := pure_eq_ok.1 h
    exact ⟨rfl, .inl ⟨rfl, rfl⟩⟩
  · rename_i fold argument
    obtain ⟨type, k, htype, hfold⟩ := bind_eq_ok.1 h
    obtain ⟨hresult, rfl : k = n⟩ := lift_eq_ok.1 htype
    obtain ⟨cell, _, hcell, hfold⟩ := bind_eq_ok.1 hfold
    obtain ⟨rfl, rfl⟩ := Prod.mk.inj (Except.ok.inj hcell)
    obtain ⟨rfl, rfl⟩ := pure_eq_ok.1 hfold
    exact ⟨rfl, .inr ⟨fold, argument, type, rfl, rfl, hresult, rfl⟩⟩
  · exact absurd h throw_eq_ok.1

theorem condition_eq_ok {e : Expr} :
    condition context e layout n = .ok (c, m) ↔
      code context e layout n = .ok (c, m) ∧ expectBool c.type = .ok () := by
  simp only [condition, bind_eq_ok, lift_eq_ok, pure_eq_ok]
  grind

end Inversion

/-! ### Expressions without aggregates -/

/-- An expression compiles to one stateless code, wherever the compilation is started. -/
structure Compiles (context : Context) (layout : Layout) (e : Expr) (c : Code) : Prop where
  constant : Constant (code context e layout) c
  stateless : c.isStateless = true

theorem Compiles.code_eq {e : Expr} {c' : Code} (h : Compiles context layout e c)
    (hcode : code context e layout n = .ok (c', m)) : c' = c :=
  (h.constant.unique hcode).1

theorem Compiles.condition_eq {e : Expr} {c' : Code} (h : Compiles context layout e c)
    (hcode : condition context e layout n = .ok (c', m)) : c' = c :=
  h.code_eq (condition_eq_ok.1 hcode).1

mutual

/-- Without aggregates no cell is allotted. -/
theorem compiles_of_code (context : Context) :
    ∀ (e : Expr) {layout : Layout} {n m : Nat} {c : Code}, e.isAggregateFree = true →
      code context e layout n = .ok (c, m) → Compiles context layout e c
  | .const v, _, n, m, c, _, h => by
      obtain ⟨rfl, -⟩ := pure_eq_ok.1 h
      exact ⟨constant_pure _, rfl⟩
  | .var v, layout, n, m, c, _, h => by
      obtain ⟨b, hb, rfl, -⟩ := code_var.1 h
      exact ⟨fun k => code_var.2 ⟨b, hb, rfl, rfl⟩, rfl⟩
  | .and l r, layout, n, m, c, hfree, h => by
      simp only [Expr.isAggregateFree, Bool.and_eq_true] at hfree
      obtain ⟨l', r', k, hl, hr, hlt, hrt, rfl⟩ := code_and.1 h
      obtain ⟨hl, hls⟩ := compiles_of_code context l hfree.1 hl
      obtain ⟨hr, hrs⟩ := compiles_of_code context r hfree.2 hr
      exact ⟨fun k => code_and.2 ⟨l', r', k, hl k, hr k, hlt, hrt, rfl⟩,
        by simp [Code.isStateless, hls, hrs]⟩
  | .or l r, layout, n, m, c, hfree, h => by
      simp only [Expr.isAggregateFree, Bool.and_eq_true] at hfree
      obtain ⟨l', r', k, hl, hr, hlt, hrt, rfl⟩ := code_or.1 h
      obtain ⟨hl, hls⟩ := compiles_of_code context l hfree.1 hl
      obtain ⟨hr, hrs⟩ := compiles_of_code context r hfree.2 hr
      exact ⟨fun k => code_or.2 ⟨l', r', k, hl k, hr k, hlt, hrt, rfl⟩,
        by simp [Code.isStateless, hls, hrs]⟩
  | .not e, layout, n, m, c, hfree, h => by
      obtain ⟨e', he, ht, rfl⟩ := code_not.1 h
      obtain ⟨he, hes⟩ := compiles_of_code context e hfree he
      exact ⟨fun k => code_not.2 ⟨e', he k, ht, rfl⟩, hes⟩
  | .compare op l r, layout, n, m, c, hfree, h => by
      simp only [Expr.isAggregateFree, Bool.and_eq_true] at hfree
      obtain ⟨l', r', k, hl, hr, ht, rfl⟩ := code_compare.1 h
      obtain ⟨hl, hls⟩ := compiles_of_code context l hfree.1 hl
      obtain ⟨hr, hrs⟩ := compiles_of_code context r hfree.2 hr
      exact ⟨fun k => code_compare.2 ⟨l', r', k, hl k, hr k, ht, rfl⟩,
        by simp [Code.isStateless, hls, hrs]⟩
  | .arith op l r, layout, n, m, c, hfree, h => by
      simp only [Expr.isAggregateFree, Bool.and_eq_true] at hfree
      obtain ⟨l', r', k, type, hl, hr, ht, rfl⟩ := code_arith.1 h
      obtain ⟨hl, hls⟩ := compiles_of_code context l hfree.1 hl
      obtain ⟨hr, hrs⟩ := compiles_of_code context r hfree.2 hr
      exact ⟨fun k => code_arith.2 ⟨l', r', k, type, hl k, hr k, ht, rfl⟩,
        by simp [Code.isStateless, hls, hrs]⟩
  | .call space name args, layout, n, m, c, hfree, h => by
      simp only [Expr.isAggregateFree, Bool.and_eq_true, Option.isNone_iff_eq_none] at hfree
      obtain ⟨f, args', type, hf, harity, hargs, ht, rfl⟩ := (code_call hfree.1).1 h
      obtain ⟨hargs, hs⟩ := compiles_of_codes context args hfree.2 hargs
      exact ⟨fun k => (code_call hfree.1).2 ⟨f, args', type, hf, harity, hargs k, ht, rfl⟩, hs⟩
  | .member e source, layout, n, m, c, hfree, h => by
      obtain ⟨d, e', hd, he, ht, rfl⟩ := code_member.1 h
      obtain ⟨he, hes⟩ := compiles_of_code context e hfree he
      exact ⟨fun k => code_member.2 ⟨d, e', hd, he k, ht, rfl⟩, hes⟩
  | .isNull e, layout, n, m, c, hfree, h => by
      obtain ⟨e', he, rfl⟩ := code_isNull.1 h
      obtain ⟨he, hes⟩ := compiles_of_code context e hfree he
      exact ⟨fun k => code_isNull.2 ⟨e', he k, rfl⟩, hes⟩
  | .slotEmpty stream, layout, n, m, c, _, h => by
      obtain ⟨slot, hslot, rfl, -⟩ := code_slotEmpty.1 h
      exact ⟨fun k => code_slotEmpty.2 ⟨slot, hslot, rfl, rfl⟩, rfl⟩

theorem compiles_of_codes (context : Context) :
    ∀ (es : List Expr) {layout : Layout} {n m : Nat} {cs : List Code},
      Expr.allAggregateFree es = true →
      codes context es layout n = .ok (cs, m) →
        Constant (codes context es layout) cs ∧ Code.allStateless cs = true
  | [], _, n, m, cs, _, h => by
      obtain ⟨rfl, -⟩ := pure_eq_ok.1 h
      exact ⟨constant_pure _, rfl⟩
  | e :: es, layout, n, m, cs, hfree, h => by
      simp only [Expr.allAggregateFree, Bool.and_eq_true] at hfree
      obtain ⟨c, cs', k, hc, hcs, rfl⟩ := codes_cons.1 h
      obtain ⟨hc, hs⟩ := compiles_of_code context e hfree.1 hc
      obtain ⟨hcs, hss⟩ := compiles_of_codes context es hfree.2 hcs
      exact ⟨fun k => codes_cons.2 ⟨c, cs', k, hc k, hcs k, rfl⟩,
        by simp [Code.allStateless, hs, hss]⟩

end

end Compile

end EventQuery
