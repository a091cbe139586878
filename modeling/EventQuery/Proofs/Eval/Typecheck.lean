import EventQuery.Proofs.Eval.Compile
import EventQuery.Proofs.Eval.Typing

/-!
Compiled code is typed. Each aggregate is allotted a cell of its own, so there are types for the
cells under which all parts of the code are typed together.
-/

namespace EventQuery

/-- Some types of the cells from `n` up to `m` bring about a condition, whatever the other cells
hold. -/
def TypesCells (n m : Nat) (P : (Nat → AttributeType) → Prop) : Prop :=
  n ≤ m ∧ ∃ cells : Nat → AttributeType,
    ∀ cells', (∀ i, n ≤ i → i < m → cells' i = cells i) → P cells'

namespace TypesCells

variable {n k m : Nat} {P Q : (Nat → AttributeType) → Prop}

theorem none (h : ∀ cells, P cells) : TypesCells n n P :=
  ⟨Nat.le_refl n, fun _ => .object, fun cells' _ => h cells'⟩

/-- A new cell may be of any type. -/
theorem one (n : Nat) (type : AttributeType) : TypesCells n (n + 1) fun cells => cells n = type :=
  ⟨Nat.le_succ n, fun _ => type, fun _ h => h n (Nat.le_refl n) (Nat.lt_succ_self n)⟩

/-- Conditions on different cells can be brought about together. -/
theorem and (hP : TypesCells n k P) (hQ : TypesCells k m Q) :
    TypesCells n m fun cells => P cells ∧ Q cells := by
  obtain ⟨hnk, first, hfirst⟩ := hP
  obtain ⟨hkm, second, hsecond⟩ := hQ
  refine ⟨Nat.le_trans hnk hkm, fun i => if i < k then first i else second i, fun cells' h => ?_⟩
  constructor
  · refine hfirst cells' fun i hn hk => ?_
    exact (h i hn (Nat.lt_of_lt_of_le hk hkm)).trans (if_pos hk)
  · refine hsecond cells' fun i hk hm => ?_
    exact (h i (Nat.le_trans hnk hk) hm).trans (if_neg (Nat.not_lt.2 hk))

theorem mono (hP : TypesCells n m P) (h : ∀ cells, P cells → Q cells) : TypesCells n m Q := by
  obtain ⟨hnm, cells, hcells⟩ := hP
  exact ⟨hnm, cells, fun cells' h' => h cells' (hcells cells' h')⟩

end TypesCells

/-- The definitions of the slots of a layout. -/
def Layout.definitions (l : Layout) : List Definition := l.slots.map (·.definition)

theorem Layout.definitions_extend (l : Layout) (d : Definition) (reference : String) :
    (l.extend d reference).definitions = l.definitions ++ [d] := by
  simp [definitions, extend]

theorem Arity.accepts_of_check {a : Arity} {function : String} {count : Nat}
    (h : a.check function count = .ok ()) : a.accepts count = true := by
  unfold check at h
  split at h
  · assumption
  · cases h

namespace Compile

open Allot

mutual

/-- Compiled code is typed over the definitions of its layout. -/
theorem typed_of_code (context : Context) :
    ∀ (e : Expr) {layout : Layout} {n m : Nat} {c : Code},
      code context e layout n = .ok (c, m) →
      TypesCells n m fun cells => c.Typed context cells layout.definitions
  | .const v, _, n, m, c, h => by
      obtain ⟨rfl, rfl⟩ := pure_eq_ok.1 h
      exact .none fun _ => trivial
  | .var v, layout, n, m, c, h => by
      obtain ⟨b, hb, rfl, rfl⟩ := code_var.1 h
      obtain ⟨s, hs, -, htype⟩ := Layout.resolve_eq_ok hb
      refine .none fun _ => ⟨s.definition, ?_, htype⟩
      rw [Layout.definitions, List.getElem?_map, hs, Option.map_some]
  | .and l r, _, n, m, c, h => by
      obtain ⟨l', r', k, hl, hr, -, -, rfl⟩ := code_and.1 h
      exact (typed_of_code context l hl).and (typed_of_code context r hr)
  | .or l r, _, n, m, c, h => by
      obtain ⟨l', r', k, hl, hr, -, -, rfl⟩ := code_or.1 h
      exact (typed_of_code context l hl).and (typed_of_code context r hr)
  | .not e, _, n, m, c, h => by
      obtain ⟨e', he, -, rfl⟩ := code_not.1 h
      exact (typed_of_code context e he :)
  | .compare op l r, _, n, m, c, h => by
      obtain ⟨l', r', k, hl, hr, htypes, rfl⟩ := code_compare.1 h
      exact ((typed_of_code context l hl).and (typed_of_code context r hr)).mono
        fun _ hlr => ⟨hlr.1, hlr.2, htypes⟩
  | .arith op l r, _, n, m, c, h => by
      obtain ⟨l', r', k, type, hl, hr, htype, rfl⟩ := code_arith.1 h
      exact ((typed_of_code context l hl).and (typed_of_code context r hr)).mono
        fun _ hlr => ⟨hlr.1, hlr.2, htype⟩
  | .call space name args, layout, n, m, c, h => by
      cases hkind : aggregateOf space name with
      | none =>
          obtain ⟨f, args', type, hf, harity, hargs, htype, rfl⟩ := (code_call hkind).1 h
          have haccepts := Arity.accepts_of_check harity
          rw [← codes_length hargs] at haccepts
          exact (typed_of_codes context args hargs).mono fun _ hargs =>
            ⟨hargs, haccepts, htype, List.mem_of_find?_eq_some hf⟩
      | some kind =>
          obtain ⟨args', k, hargs, haggregate⟩ := code_aggregate hkind h
          have htyped := typed_of_codes context args hargs
          obtain ⟨rfl, ⟨-, rfl⟩ | ⟨fold, argument, type, -, rfl, htype, rfl⟩⟩ :=
            aggregate_eq_ok haggregate
          · exact (htyped.and (.one k .object)).mono fun _ _ => trivial
          · exact (htyped.and (.one k argument.type)).mono
              fun _ h => ⟨h.1.1, h.2, htype⟩
  | .member e source, layout, n, m, c, h => by
      -- The condition is compiled for one slot more, and its cells are those of the whole.
      obtain ⟨d, e', hd, he, -, rfl⟩ := code_member.1 h
      refine (typed_of_code context e he).mono fun _ he => ⟨(List.length_map _).symm, d, hd, ?_⟩
      rw [← Layout.definitions_extend]
      exact he
  | .isNull e, _, n, m, c, h => by
      obtain ⟨e', he, rfl⟩ := code_isNull.1 h
      exact (typed_of_code context e he :)
  | .slotEmpty stream, _, n, m, c, h => by
      obtain ⟨slot, -, rfl, rfl⟩ := code_slotEmpty.1 h
      exact .none fun _ => trivial

theorem typed_of_codes (context : Context) :
    ∀ (es : List Expr) {layout : Layout} {n m : Nat} {cs : List Code},
      codes context es layout n = .ok (cs, m) →
      TypesCells n m fun cells => Code.AllTyped context cells cs layout.definitions
  | [], _, n, m, cs, h => by
      obtain ⟨rfl, rfl⟩ := pure_eq_ok.1 h
      exact .none fun _ => trivial
  | e :: es, _, n, m, cs, h => by
      obtain ⟨c, cs', k, hc, hcs, rfl⟩ := codes_cons.1 h
      exact (typed_of_code context e hc).and (typed_of_codes context es hcs)

end

end Compile

end EventQuery
