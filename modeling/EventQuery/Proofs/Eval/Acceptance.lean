import EventQuery.Proofs.Eval.Compile

/-!
Which expressions the compiler accepts. Aggregates make the code of an expression depend on the cell
that the compilation starts from, but neither its type nor whether there is any.
-/

namespace EventQuery

namespace Allot

variable {ε ε' α β : Type} {x : Allot ε α} {f : α → Allot ε β} {n m : Nat} {a : α} {e : ε}

theorem bind_of_ok (h : x n = .ok (a, m)) : (x >>= f) n = f a m := by
  change (x n >>= fun q => f q.1 q.2) = _
  rw [h]
  rfl

theorem bind_of_error (h : x n = .error e) : (x >>= f) n = .error e := by
  change (x n >>= fun q => f q.1 q.2) = _
  rw [h]
  rfl

theorem finish_of_error (h : x 0 = .error e) : x.finish = .error e := by
  unfold finish
  rw [h]

/-- The compilation gives a result from whatever cell it starts. -/
def Succeeds (x : Allot ε α) : Prop := ∀ n, ∃ a m, x n = .ok (a, m)

theorem succeeds_pure (a : α) : Succeeds (pure a : Allot ε α) := fun n => ⟨a, n, rfl⟩

theorem Succeeds.bind (hx : Succeeds x) (hf : ∀ a, Succeeds (f a)) :
    Succeeds (x >>= f) := by
  intro n
  obtain ⟨a, k, ha⟩ := hx n
  obtain ⟨b, m, hb⟩ := hf a k
  exact ⟨b, m, bind_eq_ok.2 ⟨a, k, ha, hb⟩⟩

theorem Succeeds.mapError (hx : Succeeds x) (g : ε → ε') : Succeeds (x.mapError g) := by
  intro n
  obtain ⟨a, m, ha⟩ := hx n
  exact ⟨a, m, mapError_eq_ok.2 ha⟩

end Allot

namespace Compile

open Allot

variable {context : Context}

/-- An aggregate is allotted a cell wherever the next free one is. -/
theorem aggregate_from {kind : AggregateKind} {args args' : List Code} {n m : Nat} {c : Code}
    (htypes : args'.map Code.type = args.map Code.type)
    (h : aggregate kind args n = .ok (c, m)) (k : Nat) :
    ∃ c' k', aggregate kind args' k = .ok (c', k') ∧ c'.type = c.type := by
  obtain ⟨-, ⟨rfl, rfl⟩ | ⟨fold, argument, type, rfl, rfl, htype, rfl⟩⟩ := aggregate_eq_ok h
  · cases args with
    | nil =>
        obtain rfl : args' = [] := by simpa using htypes
        exact ⟨.count k, k + 1, rfl, rfl⟩
    | cons => cases h
  · obtain ⟨argument', rfl, hargument⟩ : ∃ a, args' = [a] ∧ a.type = argument.type := by
      simpa [List.map_eq_singleton_iff] using htypes
    refine ⟨.fold fold argument' type k, k + 1, ?_, rfl⟩
    simp only [aggregate]
    exact bind_eq_ok.2 ⟨type, k, lift_eq_ok.2 ⟨hargument ▸ htype, rfl⟩, rfl⟩

mutual

/-- What is accepted somewhere is accepted everywhere, with the same type. -/
theorem code_from : ∀ (e : Expr) {layout : Layout} {n m : Nat} {c : Code},
    code context e layout n = .ok (c, m) →
      ∀ k, ∃ c' k', code context e layout k = .ok (c', k') ∧ c'.type = c.type
  | .const v, _, n, m, c, h, k => by
      obtain ⟨rfl, -⟩ := pure_eq_ok.1 h
      exact ⟨_, k, rfl, rfl⟩
  | .var v, layout, n, m, c, h, k => by
      obtain ⟨b, hb, rfl, -⟩ := code_var.1 h
      exact ⟨_, k, code_var.2 ⟨b, hb, rfl, rfl⟩, rfl⟩
  | .and l r, layout, n, m, c, h, k => by
      obtain ⟨l', r', _, hl, hr, hlt, hrt, rfl⟩ := code_and.1 h
      obtain ⟨l₁, k₁, hl, hltype⟩ := code_from l hl k
      obtain ⟨r₁, k₂, hr, hrtype⟩ := code_from r hr k₁
      exact ⟨_, k₂, code_and.2 ⟨l₁, r₁, k₁, hl, hr, hltype ▸ hlt, hrtype ▸ hrt, rfl⟩, rfl⟩
  | .or l r, layout, n, m, c, h, k => by
      obtain ⟨l', r', _, hl, hr, hlt, hrt, rfl⟩ := code_or.1 h
      obtain ⟨l₁, k₁, hl, hltype⟩ := code_from l hl k
      obtain ⟨r₁, k₂, hr, hrtype⟩ := code_from r hr k₁
      exact ⟨_, k₂, code_or.2 ⟨l₁, r₁, k₁, hl, hr, hltype ▸ hlt, hrtype ▸ hrt, rfl⟩, rfl⟩
  | .not e, layout, n, m, c, h, k => by
      obtain ⟨e', he, ht, rfl⟩ := code_not.1 h
      obtain ⟨e₁, k₁, he, htype⟩ := code_from e he k
      exact ⟨_, k₁, code_not.2 ⟨e₁, he, htype ▸ ht, rfl⟩, rfl⟩
  | .compare op l r, layout, n, m, c, h, k => by
      obtain ⟨l', r', _, hl, hr, ht, rfl⟩ := code_compare.1 h
      obtain ⟨l₁, k₁, hl, hltype⟩ := code_from l hl k
      obtain ⟨r₁, k₂, hr, hrtype⟩ := code_from r hr k₁
      exact ⟨_, k₂, code_compare.2 ⟨l₁, r₁, k₁, hl, hr, hltype ▸ hrtype ▸ ht, rfl⟩, rfl⟩
  | .arith op l r, layout, n, m, c, h, k => by
      obtain ⟨l', r', _, type, hl, hr, ht, rfl⟩ := code_arith.1 h
      obtain ⟨l₁, k₁, hl, hltype⟩ := code_from l hl k
      obtain ⟨r₁, k₂, hr, hrtype⟩ := code_from r hr k₁
      exact ⟨_, k₂, code_arith.2 ⟨l₁, r₁, k₁, type, hl, hr, hltype ▸ hrtype ▸ ht, rfl⟩, rfl⟩
  | .call space name args, layout, n, m, c, h, k => by
      cases hkind : aggregateOf space name with
      | some kind =>
          obtain ⟨args', _, hargs, haggregate⟩ := code_aggregate hkind h
          obtain ⟨args₁, k₁, hargs, htypes⟩ := codes_from args hargs k
          obtain ⟨c', k', hc', htype⟩ := aggregate_from htypes haggregate k₁
          have hcount : ¬1 < args.length := by
            intro hcount
            simp only [code, hkind, if_pos hcount] at h
            exact throw_eq_ok.1 h
          refine ⟨c', k', ?_, htype⟩
          simp only [code, hkind, if_neg hcount]
          exact bind_eq_ok.2 ⟨args₁, k₁, hargs, hc'⟩
      | none =>
          obtain ⟨f, args', type, hf, harity, hargs, ht, rfl⟩ := (code_call hkind).1 h
          obtain ⟨args₁, k₁, hargs, htypes⟩ := codes_from args hargs k
          exact ⟨_, k₁, (code_call hkind).2 ⟨f, args₁, type, hf, harity, hargs, htypes ▸ ht, rfl⟩,
            rfl⟩
  | .member e source, layout, n, m, c, h, k => by
      obtain ⟨d, e', hd, he, ht, rfl⟩ := code_member.1 h
      obtain ⟨e₁, k₁, he, htype⟩ := code_from e he k
      exact ⟨_, k₁, code_member.2 ⟨d, e₁, hd, he, htype ▸ ht, rfl⟩, rfl⟩
  | .isNull e, layout, n, m, c, h, k => by
      obtain ⟨e', he, rfl⟩ := code_isNull.1 h
      obtain ⟨e₁, k₁, he, -⟩ := code_from e he k
      exact ⟨_, k₁, code_isNull.2 ⟨e₁, he, rfl⟩, rfl⟩
  | .slotEmpty stream, layout, n, m, c, h, k => by
      obtain ⟨slot, hslot, rfl, -⟩ := code_slotEmpty.1 h
      exact ⟨_, k, code_slotEmpty.2 ⟨slot, hslot, rfl, rfl⟩, rfl⟩

theorem codes_from : ∀ (es : List Expr) {layout : Layout} {n m : Nat} {cs : List Code},
    codes context es layout n = .ok (cs, m) →
      ∀ k, ∃ cs' k', codes context es layout k = .ok (cs', k') ∧
        cs'.map Code.type = cs.map Code.type
  | [], _, n, m, cs, h, k => by
      obtain ⟨rfl, -⟩ := pure_eq_ok.1 h
      exact ⟨[], k, rfl, rfl⟩
  | e :: es, layout, n, m, cs, h, k => by
      obtain ⟨c, cs', _, hc, hcs, rfl⟩ := codes_cons.1 h
      obtain ⟨c₁, k₁, hc, htype⟩ := code_from e hc k
      obtain ⟨cs₁, k₂, hcs, htypes⟩ := codes_from es hcs k₁
      exact ⟨c₁ :: cs₁, k₂, codes_cons.2 ⟨c₁, cs₁, k₁, hc, hcs, rfl⟩, by simp [htype, htypes]⟩

end

variable {e : Expr} {layout : Layout} {n m : Nat} {c : Code}

theorem succeeds_code (h : code context e layout n = .ok (c, m)) :
    Succeeds (code context e layout) := by
  intro k
  obtain ⟨c', k', hc', -⟩ := code_from e h k
  exact ⟨c', k', hc'⟩

theorem succeeds_condition (h : condition context e layout n = .ok (c, m)) :
    Succeeds (condition context e layout) := by
  obtain ⟨hcode, hbool⟩ := condition_eq_ok.1 h
  intro k
  obtain ⟨c', k', hc', htype⟩ := code_from e hcode k
  exact ⟨c', k', condition_eq_ok.2 ⟨hc', htype ▸ hbool⟩⟩

end Compile

end EventQuery
