import EventQuery.Proofs.Lookup.Soundness

/-!
Classification against a store that offers less. Where a store loses indexes or supported
comparisons, fewer parts of a condition can be answered from an index. `Classified.Degrades` relates
the two classifications of one condition: every combination of nodes keeps the relation, and
`degrades_of_classifyIn` carries it through all conditions.
-/

namespace EventQuery

/-- A store offers no more than another one: what it has an index for, and the comparisons that it
answers from an index, are among those of the other. -/
structure Capability.Below (less more : Capability) : Prop where
  indexed : ∀ name, less.isIndexed name = true → more.isIndexed name = true
  supports : ∀ name op, less.supports name op = true → more.supports name op = true

theorem Capability.deny_below (c : Capability) (denied : List (String × Comparison)) :
    (c.deny denied).Below c where
  indexed _ h := h
  supports _ _ h := (Bool.and_eq_true_iff.1 h).2

/-- Two results are the same failure, or both succeed with related values. -/
inductive FailAlike {ε α β : Type} (R : α → β → Prop) : Except ε α → Except ε β → Prop
  | error (x : ε) : FailAlike R (.error x) (.error x)
  | ok {a : α} {b : β} (related : R a b) : FailAlike R (.ok a) (.ok b)

theorem FailAlike.cases {ε α β : Type} {R : α → β → Prop} {x : Except ε α} {y : Except ε β}
    (h : FailAlike R x y) :
    (∃ e, x = .error e ∧ y = .error e) ∨ ∃ a b, x = .ok a ∧ y = .ok b ∧ R a b := by
  cases h with
  | error e => exact .inl ⟨e, rfl, rfl⟩
  | ok related => exact .inr ⟨_, _, rfl, rfl, related⟩

theorem FailAlike.bind {ε α α' β β' : Type} {R : α → α' → Prop} {S : β → β' → Prop}
    {x : Except ε α} {x' : Except ε α'} {k : α → Except ε β} {k' : α' → Except ε β'}
    (hx : FailAlike R x x') (hk : ∀ a a', R a a' → FailAlike S (k a) (k' a')) :
    FailAlike S (x >>= k) (x' >>= k') := by
  cases hx with
  | error x => exact .error x
  | ok related => exact hk _ _ related

namespace Classified

variable {e : Expr} {l l' r r' inner inner' a b : Classified} {less more : Capability}

/-! ### What a classified condition claims an index for -/

/-- The attributes whose index a classified condition relies on: one for every indexed attribute,
comparison and null test in it. -/
def claims : Classified → List String
  | .independent _ | .exhaustive _ => []
  | .named _ name | .compare _ name _ _ | .isNull _ name => [name]
  | .and _ l r | .or _ l r => claims l ++ claims r
  | .not _ inner => claims inner

attribute [local simp] scope claims expr

theorem eq_exhaustive_of_scope (h : a.scope = .exhaustive) : a = .exhaustive a.expr := by
  cases a
  case exhaustive => rfl
  case not e inner =>
    simp only [scope] at h
    split at h <;> cases h
  all_goals cases h

theorem claims_of_independent (h : a.scope = .independent) : a.claims = [] := by
  rw [eq_independent_of_scope h, claims]

theorem claims_of_exhaustive (h : a.scope = .exhaustive) : a.claims = [] := by
  rw [eq_exhaustive_of_scope h, claims]

/-- A conjunction loses no claim of its sides. -/
theorem claims_conjunction : (conjunction e l r).claims = l.claims ++ r.claims := by
  unfold conjunction
  split
  · rename_i hl hr
    simp [claims_of_independent hl, claims_of_independent hr]
  · rename_i hl hr
    simp [claims_of_exhaustive hl, claims_of_exhaustive hr]
  · rfl

/-- A disjunction keeps the claims of its sides unless one of them needs a scan. -/
theorem claims_disjunction :
    (disjunction e l r).claims =
      if l.scope = .exhaustive ∨ r.scope = .exhaustive then [] else l.claims ++ r.claims := by
  unfold disjunction
  split
  · rename_i hl hr
    simp [hl, hr, claims_of_independent hl, claims_of_independent hr]
  · rename_i hl
    rw [if_pos (.inl hl), claims]
  · rename_i hr _
    rw [if_pos (.inr hr), claims]
  · rename_i hl hr _
    rw [if_neg (not_or.2 ⟨hl, hr⟩), claims]

theorem claims_negation : (negation e inner).claims = inner.claims := by
  unfold negation
  split
  · rename_i h
    rw [claims_of_independent h, claims]
  · rename_i h
    rw [claims_of_exhaustive h, claims]
  · rfl

theorem claims_whole (e : Expr) (isIndependent : Bool) : (whole e isIndependent).claims = [] := by
  cases isIndependent <;> rfl

/-- The attribute of a lookup is claimed by one of the two sides. -/
theorem mem_claims_of_lookupOf {op op' : Comparison} {name : String} {value : Expr}
    (h : lookupOf op l r = some (name, op', value)) : name ∈ l.claims ++ r.claims := by
  unfold lookupOf at h
  split at h
  · obtain ⟨-, h⟩ := Option.ite_none_right_eq_some.1 h
    cases h
    simp
  · obtain ⟨-, h⟩ := Option.ite_none_right_eq_some.1 h
    cases h
    simp
  · cases h

theorem claims_comparison_subset {op : Comparison} :
    (comparison more e op l r).claims ⊆ l.claims ++ r.claims := by
  unfold comparison
  split
  · exact List.nil_subset _
  · split
    · rename_i hlookup
      split
      · simpa using mem_claims_of_lookupOf hlookup
      · exact List.nil_subset _
    · exact List.nil_subset _

theorem claims_nullTest_subset : (nullTest more e inner).claims ⊆ inner.claims := by
  unfold nullTest
  split
  · exact List.nil_subset _
  · split
    · exact List.Subset.refl _
    · exact List.nil_subset _
  · exact List.nil_subset _

/-! ### Comparisons and lookups -/

/-- A lookup stands on an attribute, so a comparison that amounts to one is no independent node. -/
theorem comparison_of_lookupOf {op op' : Comparison} {name : String} {value : Expr}
    (h : lookupOf op l r = some (name, op', value)) (hsupports : more.supports name op' = true) :
    comparison more e op l r = .compare e name op' value := by
  have hscope : (l.scope = .independent && r.scope = .independent) = false := by
    unfold lookupOf at h
    split at h
    · rfl
    · simp
    · cases h
  simp only [comparison, hscope, h, hsupports, if_true, Bool.false_eq_true, if_false]

theorem comparison_cases (capability : Capability) (e : Expr) (op : Comparison)
    (l r : Classified) :
    comparison capability e op l r = .independent e ∨
      comparison capability e op l r = .exhaustive e ∨
      ∃ name op' value, lookupOf op l r = some (name, op', value) ∧
        capability.supports name op' = true := by
  unfold comparison
  split
  · exact .inl rfl
  · split
    · rename_i hlookup
      split
      · rename_i hsupports
        exact .inr (.inr ⟨_, _, _, hlookup, hsupports⟩)
      · exact .inr (.inl rfl)
    · exact .inr (.inl rfl)

theorem scope_conjunction_exhaustive_iff :
    (conjunction e l r).scope = .exhaustive ↔ l.scope = .exhaustive ∧ r.scope = .exhaustive := by
  unfold conjunction
  cases l.scope <;> cases r.scope <;> simp

theorem scope_disjunction_exhaustive_iff :
    (disjunction e l r).scope = .exhaustive ↔ l.scope = .exhaustive ∨ r.scope = .exhaustive := by
  unfold disjunction
  cases l.scope <;> cases r.scope <;> simp

theorem scope_negation_exhaustive_iff :
    (negation e inner).scope = .exhaustive ↔ inner.scope = .exhaustive := by
  unfold negation
  cases hscope : inner.scope <;> simp [hscope]

/-! ### Classifications that degrade -/

/-- One classification of a condition becomes another one against a store that offers less. Both
agree on what is independent of the store; what needed a scan still does; an attribute is claimed
only where it was. -/
structure Degrades (a b : Classified) : Prop where
  expr_eq : a.expr = b.expr
  independent_iff : a.scope = .independent ↔ b.scope = .independent
  exhaustive : a.scope = .exhaustive → b.scope = .exhaustive
  named : ∀ e name, b = .named e name → a = .named e name
  claims : b.claims.Sublist a.claims

namespace Degrades

theorem refl (a : Classified) : Degrades a a := ⟨rfl, Iff.rfl, id, fun _ _ => id, .refl _⟩

/-- Every part that depends on the store may degrade to a scan. -/
theorem to_exhaustive (hexpr : a.expr = e) (hscope : a.scope ≠ .independent) :
    Degrades a (.exhaustive e) where
  expr_eq := hexpr
  independent_iff := iff_of_false hscope (by simp)
  exhaustive _ := rfl
  named _ _ h := by cases h
  claims := List.nil_sublist _

theorem conjunction (hl : Degrades l l') (hr : Degrades r r') :
    Degrades (.conjunction e l r) (.conjunction e l' r') where
  expr_eq := combined_conjunction.expr_eq.trans combined_conjunction.expr_eq.symm
  independent_iff := by
    rw [scope_conjunction_iff, scope_conjunction_iff, hl.independent_iff, hr.independent_iff]
  exhaustive h := by
    obtain ⟨hleft, hright⟩ := scope_conjunction_exhaustive_iff.1 h
    exact scope_conjunction_exhaustive_iff.2 ⟨hl.exhaustive hleft, hr.exhaustive hright⟩
  named _ _ h := absurd h (combined_conjunction.ne_named _ _)
  claims := by
    rw [claims_conjunction, claims_conjunction]
    exact hl.claims.append hr.claims

theorem disjunction (hl : Degrades l l') (hr : Degrades r r') :
    Degrades (.disjunction e l r) (.disjunction e l' r') where
  expr_eq := combined_disjunction.expr_eq.trans combined_disjunction.expr_eq.symm
  independent_iff := by
    rw [scope_disjunction_iff, scope_disjunction_iff, hl.independent_iff, hr.independent_iff]
  exhaustive h :=
    scope_disjunction_exhaustive_iff.2
      ((scope_disjunction_exhaustive_iff.1 h).imp hl.exhaustive hr.exhaustive)
  named _ _ h := absurd h (combined_disjunction.ne_named _ _)
  claims := by
    rw [claims_disjunction, claims_disjunction]
    by_cases hscan : l'.scope = .exhaustive ∨ r'.scope = .exhaustive
    · rw [if_pos hscan]
      exact List.nil_sublist _
    · -- A side that needed a scan before would need one still.
      have hbefore : ¬(l.scope = .exhaustive ∨ r.scope = .exhaustive) :=
        fun h => hscan (h.imp hl.exhaustive hr.exhaustive)
      rw [if_neg hscan, if_neg hbefore]
      exact hl.claims.append hr.claims

theorem negation (h : Degrades inner inner') :
    Degrades (.negation e inner) (.negation e inner') where
  expr_eq := combined_negation.expr_eq.trans combined_negation.expr_eq.symm
  independent_iff := by rw [scope_negation_iff, scope_negation_iff, h.independent_iff]
  exhaustive hscan :=
    scope_negation_exhaustive_iff.2 (h.exhaustive (scope_negation_exhaustive_iff.1 hscan))
  named _ _ h := absurd h (combined_negation.ne_named _ _)
  claims := by
    rw [claims_negation, claims_negation]
    exact h.claims

/-- A lookup that is still possible was possible before, with the same attribute and value. -/
theorem lookupOf {op op' : Comparison} {name : String} {value : Expr} (hl : Degrades l l')
    (hr : Degrades r r') (h : Classified.lookupOf op l' r' = some (name, op', value)) :
    Classified.lookupOf op l r = some (name, op', value) := by
  unfold Classified.lookupOf at h
  split at h
  · obtain rfl := hl.named _ _ rfl
    rw [Classified.lookupOf, hr.expr_eq, if_congr hr.independent_iff rfl rfl]
    exact h
  · obtain ⟨hscope, h⟩ := Option.ite_none_right_eq_some.1 h
    obtain rfl := hr.named _ _ rfl
    rw [eq_independent_of_scope (hl.independent_iff.2 hscope), hl.expr_eq]
    exact h
  · cases h

theorem comparison {op : Comparison} (hbelow : less.Below more) (hl : Degrades l l')
    (hr : Degrades r r') : Degrades (.comparison more e op l r) (.comparison less e op l' r') := by
  have hiff : (Classified.comparison more e op l r).scope = .independent ↔
      (Classified.comparison less e op l' r').scope = .independent := by
    rw [scope_comparison_iff, scope_comparison_iff, hl.independent_iff, hr.independent_iff]
  obtain hb | hb | ⟨name, op', value, hlookup, hsupports⟩ := comparison_cases less e op l' r'
  · have ha := eq_independent_of_scope (hiff.2 (by rw [hb, scope]))
    rw [hb, ha, combined_comparison.expr_eq]
    exact refl _
  · rw [hb]
    exact to_exhaustive combined_comparison.expr_eq (mt hiff.1 (by simp [hb]))
  · rw [comparison_of_lookupOf hlookup hsupports,
      comparison_of_lookupOf (hl.lookupOf hr hlookup) (hbelow.supports _ _ hsupports)]
    exact refl _

theorem nullTest (hbelow : less.Below more) (h : Degrades inner inner') :
    Degrades (.nullTest more e inner) (.nullTest less e inner') := by
  have hscan (hscope : inner'.scope ≠ .independent) :
      Degrades (.nullTest more e inner) (.exhaustive e) :=
    to_exhaustive combined_nullTest.expr_eq
      (mt (scope_nullTest_iff.1 ·) (mt h.independent_iff.1 hscope))
  cases inner' with
  | independent e' =>
      rw [eq_independent_of_scope (h.independent_iff.2 rfl)]
      exact refl _
  | named e' name =>
      obtain rfl := h.named _ _ rfl
      by_cases hsupports : less.supports name .equal = true
      · simp only [Classified.nullTest, hsupports, hbelow.supports _ _ hsupports, if_true]
        exact refl _
      · rw [show Classified.nullTest less e (.named e' name) = .exhaustive e from if_neg hsupports]
        exact hscan nofun
  | not e' inner =>
      refine hscan fun hscope => ?_
      cases eq_independent_of_scope hscope
  | _ => exact hscan nofun

end Degrades

end Classified

section Classification

open Operator Quotes

variable {context : Context} {slot : Nat} {less more : Capability}

mutual

/-- The classifications of a condition against two stores fail alike or degrade. -/
theorem degrades_of_classifyIn (context : Context) (slot : Nat) (hbelow : less.Below more) :
    ∀ (e : Expr) (layout : Layout),
      FailAlike Classified.Degrades (classifyIn context more slot e layout)
        (classifyIn context less slot e layout)
  | .const v, layout => .ok (.refl _)
  | .var v, layout => by
      simp only [classifyIn]
      cases layout.resolve v with
      | error x => exact .error _
      | ok b =>
          dsimp only
          split
          · exact .ok (.refl _)
          · by_cases hindexed : less.isIndexed v.name = true
            · rw [if_pos hindexed, if_pos (hbelow.indexed _ hindexed)]
              exact .ok (.refl _)
            · rw [if_neg hindexed]
              split
              · exact .ok (.to_exhaustive rfl nofun)
              · exact .ok (.refl _)
  | .and l r, layout => by
      simp only [classifyIn]
      exact (degrades_of_classifyIn context slot hbelow l layout).bind fun _ _ hl =>
        (degrades_of_classifyIn context slot hbelow r layout).bind fun _ _ hr =>
          .ok (hl.conjunction hr)
  | .or l r, layout => by
      simp only [classifyIn]
      exact (degrades_of_classifyIn context slot hbelow l layout).bind fun _ _ hl =>
        (degrades_of_classifyIn context slot hbelow r layout).bind fun _ _ hr =>
          .ok (hl.disjunction hr)
  | .not e, layout => by
      simp only [classifyIn]
      exact (degrades_of_classifyIn context slot hbelow e layout).bind fun _ _ h => .ok h.negation
  | .compare op l r, layout => by
      simp only [classifyIn]
      exact (degrades_of_classifyIn context slot hbelow l layout).bind fun _ _ hl =>
        (degrades_of_classifyIn context slot hbelow r layout).bind fun _ _ hr =>
          .ok (hl.comparison hbelow hr)
  | .arith op l r, layout => by
      simp only [classifyIn]
      refine (degrades_of_classifyIn context slot hbelow l layout).bind fun _ _ hl =>
        (degrades_of_classifyIn context slot hbelow r layout).bind fun _ _ hr => ?_
      rw [decide_eq_decide.2 hl.independent_iff, decide_eq_decide.2 hr.independent_iff]
      exact .ok (.refl _)
  | .call space name args, layout => by
      simp only [classifyIn]
      refine (allIndependent_alike context slot hbelow args layout).bind fun _ _ h => ?_
      rw [h]
      exact .ok (.refl _)
  | .member e source, layout => by
      simp only [classifyIn]
      cases context.source? source with
      | none => exact .error _
      | some d =>
          refine (degrades_of_classifyIn context slot hbelow e (layout.extend d source)).bind
            fun _ _ h => ?_
          rw [decide_eq_decide.2 h.independent_iff]
          exact .ok (.refl _)
  | .isNull e, layout => by
      simp only [classifyIn]
      exact (degrades_of_classifyIn context slot hbelow e layout).bind fun _ _ h =>
        .ok (h.nullTest hbelow)
  | .slotEmpty stream, layout => .error _

/-- Both stores agree on whether the arguments of a call are independent. -/
theorem allIndependent_alike (context : Context) (slot : Nat) (hbelow : less.Below more) :
    ∀ (es : List Expr) (layout : Layout),
      FailAlike Eq (allIndependent context more slot es layout)
        (allIndependent context less slot es layout)
  | [], layout => .ok rfl
  | e :: es, layout => by
      simp only [allIndependent]
      refine (degrades_of_classifyIn context slot hbelow e layout).bind fun _ _ h =>
        (allIndependent_alike context slot hbelow es layout).bind fun _ _ hrest => ?_
      rw [decide_eq_decide.2 h.independent_iff, hrest]
      exact .ok rfl

end

/-- An index is only claimed for an attribute that the store has one for. -/
theorem isIndexed_of_mem_claims :
    ∀ (e : Expr) {layout : Layout} {cl : Classified} {name : String},
      classifyIn context less slot e layout = .ok cl → name ∈ cl.claims →
      less.isIndexed name = true
  | .const v, layout, cl, name, hcl, hname => by
      cases hcl
      cases hname
  | .var v, layout, cl, name, hcl, hname => by
      simp only [classifyIn] at hcl
      split at hcl
      · cases hcl
      · split at hcl
        · cases hcl
          cases hname
        · split at hcl
          · rename_i hindexed
            cases hcl
            rw [List.mem_singleton.1 hname]
            exact hindexed
          · cases hcl
            cases hname
  | .and l r, layout, cl, name, hcl, hname => by
      obtain ⟨left, hleft, right, hright, rfl⟩ := classifyIn_and.1 hcl
      rw [Classified.claims_conjunction, List.mem_append] at hname
      exact hname.elim (isIndexed_of_mem_claims l hleft) (isIndexed_of_mem_claims r hright)
  | .or l r, layout, cl, name, hcl, hname => by
      obtain ⟨left, hleft, right, hright, rfl⟩ := classifyIn_or.1 hcl
      rw [Classified.claims_disjunction] at hname
      split at hname
      · cases hname
      · exact (List.mem_append.1 hname).elim (isIndexed_of_mem_claims l hleft)
          (isIndexed_of_mem_claims r hright)
  | .not e, layout, cl, name, hcl, hname => by
      obtain ⟨inner, hinner, rfl⟩ := classifyIn_not.1 hcl
      rw [Classified.claims_negation] at hname
      exact isIndexed_of_mem_claims e hinner hname
  | .compare op l r, layout, cl, name, hcl, hname => by
      obtain ⟨left, hleft, right, hright, rfl⟩ := classifyIn_compare.1 hcl
      exact (List.mem_append.1 (Classified.claims_comparison_subset hname)).elim
        (isIndexed_of_mem_claims l hleft) (isIndexed_of_mem_claims r hright)
  | .arith op l r, layout, cl, name, hcl, hname => by
      obtain ⟨left, hleft, right, hright, rfl⟩ := classifyIn_arith.1 hcl
      rw [Classified.claims_whole] at hname
      cases hname
  | .call space function args, layout, cl, name, hcl, hname => by
      obtain ⟨independent, hindependent, rfl⟩ := classifyIn_call.1 hcl
      rw [Classified.claims_whole] at hname
      cases hname
  | .member e source, layout, cl, name, hcl, hname => by
      obtain ⟨d, inner, hd, hinner, rfl⟩ := classifyIn_member.1 hcl
      rw [Classified.claims_whole] at hname
      cases hname
  | .isNull e, layout, cl, name, hcl, hname => by
      obtain ⟨inner, hinner, rfl⟩ := classifyIn_isNull.1 hcl
      exact isIndexed_of_mem_claims e hinner (Classified.claims_nullTest_subset hname)
  | .slotEmpty stream, layout, cl, name, hcl, hname => by cases hcl

/-- A store that offers less classifies the same conditions and fails with the same errors on the
others. What is independent of the store stays so, what needs a scan still needs one, and no index
is claimed that was not claimed before; without indexes none is claimed at all. -/
theorem classify_degrades (context : Context) (info : MatchLayout) (e : Expr)
    (hbelow : less.Below more) :
    (∃ x, classify context more info e = .error x ∧ classify context less info e = .error x) ∨
      ∃ a b, classify context more info e = .ok a ∧ classify context less info e = .ok b ∧
        (a.scope = .independent ↔ b.scope = .independent) ∧
        (a.scope = .exhaustive → b.scope = .exhaustive) ∧
        b.claims.Sublist a.claims ∧ b.claims.length ≤ a.claims.length ∧
        ((∀ name, less.isIndexed name = false) → b.claims = []) := by
  refine (degrades_of_classifyIn context info.storeSlot hbelow e info.layout).cases.imp_right ?_
  rintro ⟨a, b, ha, hb, h⟩
  refine ⟨a, b, ha, hb, h.independent_iff, h.exhaustive, h.claims, h.claims.length_le, ?_⟩
  intro hnone
  refine List.eq_nil_iff_forall_not_mem.2 fun name hname => ?_
  have hindexed := isIndexed_of_mem_claims e hb hname
  rw [hnone name] at hindexed
  cases hindexed

/-- Quotes that are not looked up by a greater price any more are all scanned, as the value of the
comparison is of no use without its index. -/
theorem classify_degrades_quotes :
    (store.capability.deny [("price", .greater)]).Below store.capability ∧
      ∃ a b, classify .standard store.capability Quotes.layout guarded = .ok a ∧
        classify .standard (store.capability.deny [("price", .greater)]) Quotes.layout guarded =
          .ok b ∧
        a.claims = ["price"] ∧ b.scope = .exhaustive ∧ b.claims.length ≤ a.claims.length := by
  have hbelow := store.capability.deny_below [("price", .greater)]
  have hmore : classify .standard store.capability Quotes.layout guarded =
      .ok (.or guarded (.independent (.compare .equal (.named "y") (.const (.int 0))))
        (.compare (.compare .greater (.var ⟨"price", some "t"⟩)
          (.arith .divide (.named "x") (.named "y"))) "price" .greater
            (.arith .divide (.named "x") (.named "y")))) := rfl
  have hless : classify .standard (store.capability.deny [("price", .greater)]) Quotes.layout
      guarded = .ok (.exhaustive guarded) := rfl
  obtain ⟨x, hx, -⟩ | ⟨a, b, ha, hb, -, -, -, hlength, -⟩ :=
    classify_degrades .standard Quotes.layout guarded hbelow
  · cases hmore.symm.trans hx
  · refine ⟨hbelow, a, b, ha, hb, ?_, ?_, hlength⟩
    · cases hmore.symm.trans ha
      rfl
    · cases hless.symm.trans hb
      rfl

end Classification

end EventQuery
