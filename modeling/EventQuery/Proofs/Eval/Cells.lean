import EventQuery.Proofs.Eval.Compile

/-!
The cells of compiled code: the accumulators that its aggregates own. The compiler allots them in
the order of the code, one to each aggregate, so two aggregates never share one.
-/

namespace EventQuery

namespace Code

mutual

/-- The cells of the aggregates, in the order of the code. -/
def cells : Code → List Nat
  | .const _ | .read .. | .slotEmpty _ => []
  | .and l r | .or l r | .compare _ l r | .arith _ l r _ => cells l ++ cells r
  | .not e | .isNull e | .member e _ _ => cells e
  | .call _ args _ => allCells args
  | .count cell => [cell]
  | .fold _ argument _ cell => cells argument ++ [cell]

/-- The cells of the aggregates in a list of arguments. -/
def allCells : List Code → List Nat
  | [] => []
  | c :: cs => cells c ++ allCells cs

end

mutual

/-- Code without aggregates has no cells. -/
theorem cells_of_isStateless : ∀ (c : Code), c.isStateless = true → c.cells = []
  | .const _, _ | .read .., _ | .slotEmpty _, _ => by simp only [cells]
  | .and l r, h | .or l r, h | .compare _ l r, h | .arith _ l r _, h => by
      simp only [isStateless, Bool.and_eq_true] at h
      simp only [cells, cells_of_isStateless l h.1, cells_of_isStateless r h.2, List.append_nil]
  | .not e, h | .isNull e, h | .member e _ _, h => by
      simp only [isStateless] at h
      simp only [cells, cells_of_isStateless e h]
  | .call _ args _, h => by
      simp only [isStateless] at h
      simp only [cells, allCells_of_allStateless args h]

theorem allCells_of_allStateless : ∀ (cs : List Code), allStateless cs = true → allCells cs = []
  | [], _ => by simp only [allCells]
  | c :: cs, h => by
      simp only [allStateless, Bool.and_eq_true] at h
      simp only [allCells, cells_of_isStateless c h.1, allCells_of_allStateless cs h.2,
        List.append_nil]

end

end Code

/-- The cells from `n` to below `m`, allotted one after another. -/
def Allotted (n m : Nat) (cells : List Nat) : Prop := n ≤ m ∧ cells = List.range' n (m - n)

namespace Allotted

variable {n k m : Nat} {xs ys : List Nat}

theorem nil : Allotted n n [] := ⟨Nat.le_refl n, by simp⟩

theorem single : Allotted n (n + 1) [n] := ⟨Nat.le_succ n, by simp⟩

theorem append (hx : Allotted n k xs) (hy : Allotted k m ys) : Allotted n m (xs ++ ys) := by
  obtain ⟨hnk, rfl⟩ := hx
  obtain ⟨hkm, rfl⟩ := hy
  have hk : k = n + 1 * (k - n) := by omega
  have hlength : m - n = (k - n) + (m - k) := by omega
  refine ⟨Nat.le_trans hnk hkm, ?_⟩
  rw [hlength, ← List.range'_append, ← hk]

/-- One more cell, behind the others. -/
theorem concat (h : Allotted n m xs) : Allotted n (m + 1) (xs ++ [m]) := h.append single

theorem length (h : Allotted n m xs) : xs.length = m - n := by rw [h.2, List.length_range']

theorem mem_iff (h : Allotted n m xs) (i : Nat) : i ∈ xs ↔ n ≤ i ∧ i < m := by
  have hle := h.1
  rw [h.2, List.mem_range'_1]
  omega

theorem nodup (h : Allotted n m xs) : xs.Nodup := h.2 ▸ List.nodup_range'

end Allotted

namespace Compile

open Allot

/-- An aggregate takes the cell behind those of its argument. -/
theorem allotted_of_aggregate {kind : AggregateKind} {args : List Code} {n k m : Nat} {c : Code}
    (hargs : Allotted n k (Code.allCells args)) (h : aggregate kind args k = .ok (c, m)) :
    Allotted n m c.cells := by
  obtain ⟨rfl, ⟨rfl, rfl⟩ | ⟨fold, argument, type, rfl, rfl, -, rfl⟩⟩ := aggregate_eq_ok h
  · -- A count has no argument.
    obtain rfl : args = [] := by
      cases args with
      | nil => rfl
      | cons c cs => exact absurd h throw_eq_ok.1
    obtain rfl : k = n := by
      have hlength := hargs.length
      simp only [Code.allCells, List.length_nil] at hlength
      have hle := hargs.1
      omega
    simpa only [Code.cells] using Allotted.single
  · simpa only [Code.cells, Code.allCells, List.append_nil] using hargs.concat

mutual

/-- The compiler allots its cells in the order of the code. -/
theorem allotted_of_code (context : Context) :
    ∀ (e : Expr) {layout : Layout} {n m : Nat} {c : Code},
      code context e layout n = .ok (c, m) → Allotted n m c.cells
  | .const v, _, n, m, c, h => by
      obtain ⟨rfl, rfl⟩ := pure_eq_ok.1 h
      simpa only [Code.cells] using Allotted.nil
  | .var v, _, n, m, c, h => by
      obtain ⟨b, -, rfl, rfl⟩ := code_var.1 h
      simpa only [Code.cells] using Allotted.nil
  | .and l r, _, n, m, c, h => by
      obtain ⟨l', r', k, hl, hr, -, -, rfl⟩ := code_and.1 h
      simpa only [Code.cells] using
        (allotted_of_code context l hl).append (allotted_of_code context r hr)
  | .or l r, _, n, m, c, h => by
      obtain ⟨l', r', k, hl, hr, -, -, rfl⟩ := code_or.1 h
      simpa only [Code.cells] using
        (allotted_of_code context l hl).append (allotted_of_code context r hr)
  | .not e, _, n, m, c, h => by
      obtain ⟨e', he, -, rfl⟩ := code_not.1 h
      simpa only [Code.cells] using allotted_of_code context e he
  | .compare op l r, _, n, m, c, h => by
      obtain ⟨l', r', k, hl, hr, -, rfl⟩ := code_compare.1 h
      simpa only [Code.cells] using
        (allotted_of_code context l hl).append (allotted_of_code context r hr)
  | .arith op l r, _, n, m, c, h => by
      obtain ⟨l', r', k, type, hl, hr, -, rfl⟩ := code_arith.1 h
      simpa only [Code.cells] using
        (allotted_of_code context l hl).append (allotted_of_code context r hr)
  | .call space name args, _, n, m, c, h => by
      cases hkind : aggregateOf space name with
      | some kind =>
          obtain ⟨args', k, hargs, haggregate⟩ := code_aggregate hkind h
          exact allotted_of_aggregate (allotted_of_codes context args hargs) haggregate
      | none =>
          obtain ⟨f, args', type, -, -, hargs, -, rfl⟩ := (code_call hkind).1 h
          simpa only [Code.cells] using allotted_of_codes context args hargs
  | .member e source, _, n, m, c, h => by
      obtain ⟨d, e', -, he, -, rfl⟩ := code_member.1 h
      simpa only [Code.cells] using allotted_of_code context e he
  | .isNull e, _, n, m, c, h => by
      obtain ⟨e', he, rfl⟩ := code_isNull.1 h
      simpa only [Code.cells] using allotted_of_code context e he
  | .slotEmpty stream, _, n, m, c, h => by
      obtain ⟨slot, -, rfl, rfl⟩ := code_slotEmpty.1 h
      simpa only [Code.cells] using Allotted.nil

theorem allotted_of_codes (context : Context) :
    ∀ (es : List Expr) {layout : Layout} {n m : Nat} {cs : List Code},
      codes context es layout n = .ok (cs, m) → Allotted n m (Code.allCells cs)
  | [], _, n, m, cs, h => by
      obtain ⟨rfl, rfl⟩ := pure_eq_ok.1 h
      simpa only [Code.allCells] using Allotted.nil
  | e :: es, _, n, m, cs, h => by
      obtain ⟨c, cs', k, hc, hcs, rfl⟩ := codes_cons.1 h
      simpa only [Code.allCells] using
        (allotted_of_code context e hc).append (allotted_of_codes context es hcs)

end

theorem allotted_of_condition {context : Context} {e : Expr} {layout : Layout} {n m : Nat}
    {c : Code} (h : condition context e layout n = .ok (c, m)) : Allotted n m c.cells :=
  allotted_of_code context e (condition_eq_ok.1 h).1

end Compile

end EventQuery
