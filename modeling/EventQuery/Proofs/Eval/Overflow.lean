import EventQuery.Proofs.Eval.Failure
import EventQuery.Proofs.Eval.Positions
import EventQuery.Proofs.Eval.Reporting
import EventQuery.Proofs.Eval.Reset
import Mathlib.Algebra.Ring.Nat
import Mathlib.Data.List.Nodup

/-!
Evaluations that do not complete. An aggregate cannot hold a count beyond the 64-bit integers, nor
take the least of them away. `Code.visits` bounds how often one evaluation comes to an aggregate,
and with it the counts; on fewer than `2 ^ 63` events they all stay within range, so an evaluation
completes unless a sum or an average takes the least integer away.
-/

namespace EventQuery

/-- The least integer of 64 bits is none of 32 bits. -/
theorem Value.eq_long_of_asLong {v : Value} (h : v.asLong = some Int64.minValue) :
    v = .long Int64.minValue := by
  cases v with
  | long l =>
      cases h
      rfl
  | int i =>
      have hi : i.toInt64 = Int64.minValue := Option.some.inj h
      have htoInt := congrArg Int64.toInt hi
      rw [Int32.toInt_toInt64] at htoInt
      have hleast := i.le_toInt
      rw [htoInt] at hleast
      exact absurd hleast (by decide)
  | _ => cases h

/-! ### Accumulators within bounds -/

namespace Accumulator

variable {n k : Nat} {a b : Accumulator} {added : Bool} {v : Value}

/-- An accumulator has seen at most `n` events: it counts no more, and each of its live values has
been added at least once and at most `n` times. -/
structure Within (n : Nat) (a : Accumulator) : Prop where
  count : a.count.natAbs ≤ n
  live : ∀ p ∈ a.values, 1 ≤ p.2 ∧ p.2 ≤ n

theorem within_empty (n : Nat) : Within n empty := ⟨Nat.zero_le n, nofun⟩

theorem Within.mono (h : Within n a) (hnk : n ≤ k) : Within k a :=
  ⟨Nat.le_trans h.count hnk, fun p hp => (h.live p hp).imp_right (Nat.le_trans · hnk)⟩

theorem Within.step (h : Within n a) (hstep : a.step added = .ok b) : Within (n + 1) b := by
  obtain rfl := step_count hstep
  refine ⟨?_, (h.mono (Nat.le_succ n)).live⟩
  have hcount := h.count
  dsimp only
  split <;> omega

/-- A count that is not at its limit can move by one. -/
theorem Within.step_ne_error (h : Within n a) (hn : n + 1 < 2 ^ 63) (e : EvalError) :
    a.step added ≠ .error e := by
  have hcount := h.count
  have hleast : Int64.minValue.toInt = -2 ^ 63 := rfl
  have hgreatest : Int64.maxValue.toInt = 2 ^ 63 - 1 := rfl
  unfold Accumulator.step
  dsimp only
  rw [if_pos]
  · nofun
  · rw [hleast, hgreatest]
    split <;> omega

theorem live_addValue {values : List (Value × Nat)} (h : ∀ p ∈ values, 1 ≤ p.2 ∧ p.2 ≤ n) :
    ∀ p ∈ addValue v values, 1 ≤ p.2 ∧ p.2 ≤ n + 1 := by
  induction values with
  | nil =>
      intro p hp
      rw [addValue, List.mem_singleton] at hp
      subst hp
      exact ⟨Nat.le_refl 1, Nat.le_add_left 1 n⟩
  | cons first rest ih =>
      obtain ⟨hfirst, hrest⟩ := List.forall_mem_cons.1 h
      have hkept (p : Value × Nat) (hp : 1 ≤ p.2 ∧ p.2 ≤ n) : 1 ≤ p.2 ∧ p.2 ≤ n + 1 :=
        ⟨hp.1, Nat.le_succ_of_le hp.2⟩
      unfold addValue
      split
      · refine List.forall_mem_cons.2 ⟨⟨Nat.le_refl 1, Nat.le_add_left 1 n⟩, ?_⟩
        exact List.forall_mem_cons.2 ⟨hkept _ hfirst, fun p hp => hkept p (hrest p hp)⟩
      · refine List.forall_mem_cons.2 ⟨⟨Nat.le_add_left 1 _, Nat.succ_le_succ hfirst.2⟩, ?_⟩
        exact fun p hp => hkept p (hrest p hp)
      · exact List.forall_mem_cons.2 ⟨hkept _ hfirst, ih hrest⟩

theorem live_removeValue {values : List (Value × Nat)} (h : ∀ p ∈ values, 1 ≤ p.2 ∧ p.2 ≤ n) :
    ∀ p ∈ removeValue v values, 1 ≤ p.2 ∧ p.2 ≤ n := by
  induction values with
  | nil => exact nofun
  | cons first rest ih =>
      obtain ⟨hfirst, hrest⟩ := List.forall_mem_cons.1 h
      unfold removeValue
      split
      · split
        · exact hrest
        · refine List.forall_mem_cons.2 ⟨?_, hrest⟩
          dsimp only at hfirst ⊢
          omega
      · exact List.forall_mem_cons.2 ⟨hfirst, ih hrest⟩

/-- Folding a value is seeing one more event. -/
theorem Within.fold {kind : FoldKind} (h : Within n a) (hfold : a.fold kind v added = .ok b) :
    Within (n + 1) b := by
  unfold Accumulator.fold at hfold
  split at hfold
  · cases hfold
    exact h.mono (Nat.le_succ n)
  · obtain ⟨a', hstep, hfold⟩ := Run.bind_eq_ok.1 hfold
    have ha' := h.step hstep
    have hvalues : a'.values = a.values := by rw [step_count hstep]
    cases kind with
    | sum | avg =>
        rcases addToSums_cases a' v added with ⟨sumLong, sumDouble, hsums⟩ | ⟨hsums, -⟩
        · cases hsums.symm.trans hfold
          exact ⟨ha'.count, ha'.live⟩
        · cases hsums.symm.trans hfold
    | min | max =>
        cases hfold
        refine ⟨ha'.count, ?_⟩
        dsimp only
        rw [hvalues]
        split
        · exact live_addValue h.live
        · exact fun p hp => ((live_removeValue h.live) p hp).imp_right Nat.le_succ_of_le

/-- Only the least integer cannot be taken away, and only from a sum or an average. -/
theorem fold_eq_overflow {kind : FoldKind} (h : Within n a) (hn : n + 1 < 2 ^ 63)
    (hfold : a.fold kind v added = .error .overflow) :
    (kind = .sum ∨ kind = .avg) ∧ added = false ∧ v = .long Int64.minValue := by
  unfold Accumulator.fold at hfold
  split at hfold
  · cases hfold
  · cases hstep : a.step added with
    | error e => exact absurd hstep (h.step_ne_error hn e)
    | ok a' =>
        rw [hstep] at hfold
        cases kind with
        | min | max => cases hfold
        | sum | avg =>
            replace hfold : a'.addToSums v added = .error .overflow := hfold
            rcases addToSums_cases a' v added with ⟨sumLong, sumDouble, hsums⟩ | ⟨-, hadded, hlong⟩
            · cases hsums.symm.trans hfold
            · exact ⟨by simp, hadded, Value.eq_long_of_asLong hlong⟩

/-- Taking the least integer away does not complete, whatever the state. -/
theorem fold_least_eq_overflow {kind : FoldKind} (a : Accumulator)
    (hkind : kind = .sum ∨ kind = .avg) :
    a.fold kind (.long Int64.minValue) false = .error .overflow := by
  unfold Accumulator.fold
  rw [if_neg (by simp [Value.isNull])]
  rcases step_cases a false with hstep | hstep <;> rw [hstep]
  · rcases hkind with rfl | rfl <;> rfl
  · rfl

end Accumulator

/-! ### Visits of aggregates -/

namespace Memory

variable {n k : Nat → Nat} {m : Memory}

/-- Every accumulator is within the bound of its cell. -/
def Within (n : Nat → Nat) (m : Memory) : Prop := ∀ cell, (m.read cell).Within (n cell)

theorem within_fresh (count : Nat) (n : Nat → Nat) : (fresh count).Within n := by
  intro cell
  rw [read_fresh]
  exact Accumulator.within_empty _

theorem Within.mono (h : m.Within n) (hnk : ∀ cell, n cell ≤ k cell) : m.Within k :=
  fun cell => (h cell).mono (hnk cell)

/-- Writing to a cell that has seen one more event. -/
theorem Within.write {own : Nat} {a : Accumulator} (h : m.Within n) (ha : a.Within (n own + 1)) :
    (m.write own a).Within fun cell => n cell + if own = cell then 1 else 0 := by
  intro cell
  dsimp only
  split
  · subst own
    by_cases hcell : cell < m.cells.length
    · rw [read_write_self hcell]
      exact ha
    · have hsame : m.write cell a = m := by
        simp [Memory.write, List.set_eq_of_length_le (Nat.le_of_not_lt hcell)]
      rw [hsame]
      exact (h cell).mono (Nat.le_succ _)
  · rename_i hne
    rw [read_write_of_ne hne]
    exact h cell

end Memory

namespace Run

variable {ε α β : Type} {k k' : Nat → Nat} {x : Run ε α} {g : α → Run ε β}

/-- A computation that lets each aggregate see at most so many events. -/
def Spends (k : Nat → Nat) (x : Run ε α) : Prop :=
  ∀ n m, m.Within n → (x m).2.Within fun cell => n cell + k cell

theorem Spends.mono (hx : Spends k x) (hk : ∀ cell, k cell ≤ k' cell) : Spends k' x :=
  fun n m hm => (hx n m hm).mono fun cell => Nat.add_le_add_left (hk cell) _

theorem spends_pure (a : α) : Spends k (pure a : Run ε α) :=
  fun _ _ hm => hm.mono fun _ => Nat.le_add_right _ _

theorem spends_ofExcept (r : Except ε α) : Spends k (ofExcept r) := by
  intro n m hm
  rw [run_ofExcept]
  exact hm.mono fun _ => Nat.le_add_right _ _

theorem Spends.bind (hx : Spends k x) (hg : ∀ a, Spends k' (g a)) :
    Spends (fun cell => k cell + k' cell) (x >>= g) := by
  intro n m hm
  have hfirst := hx n m hm
  rcases hrun : x m with ⟨e | a, m₁⟩ <;> rw [hrun] at hfirst
  · rw [bind_of_error hrun]
    refine hfirst.mono fun cell => ?_
    dsimp only
    omega
  · rw [bind_of_ok hrun]
    refine (hg a _ m₁ hfirst).mono fun cell => ?_
    dsimp only
    omega

/-- A sequence whose rest is no visit of an aggregate. -/
theorem Spends.map (hx : Spends k x) (hg : ∀ a, Spends (fun _ => 0) (g a)) : Spends k (x >>= g) :=
  hx.bind hg

theorem Spends.anyM {test : α → Run ε Bool} (h : ∀ a, Spends k (test a)) (as : List α) :
    Spends (fun cell => as.length * k cell) (Run.anyM test as) := by
  induction as with
  | nil => exact spends_pure false
  | cons a rest ih =>
      have hnext (passes : Bool) : Spends (fun cell => rest.length * k cell)
          (if passes then pure true else Run.anyM test rest) := by
        cases passes
        · exact ih
        · exact spends_pure true
      refine ((h a).bind hnext).mono fun cell => ?_
      exact Nat.le_of_eq (by rw [List.length_cons, Nat.add_mul, Nat.one_mul, Nat.add_comm])

end Run

namespace Code

open Run

mutual

/-- How often one evaluation can come to the aggregate of a cell: in a condition on the rows of a
source once for each row. -/
def visits (rows : SourceRows) (cell : Nat) : Code → Nat
  | .const _ | .read .. | .slotEmpty _ => 0
  | .and l r | .or l r | .compare _ l r | .arith _ l r _ => visits rows cell l + visits rows cell r
  | .not e | .isNull e => visits rows cell e
  | .call _ args _ => allVisits rows cell args
  | .count own => if own = cell then 1 else 0
  | .fold _ argument _ own => visits rows cell argument + if own = cell then 1 else 0
  | .member condition source _ => (rows source).length * visits rows cell condition

/-- How often the evaluation of a list of arguments can come to the aggregate of a cell. -/
def allVisits (rows : SourceRows) (cell : Nat) : List Code → Nat
  | [] => 0
  | c :: cs => visits rows cell c + allVisits rows cell cs

end

theorem allVisits_append (rows : SourceRows) (cell : Nat) (cs ds : List Code) :
    allVisits rows cell (cs ++ ds) = allVisits rows cell cs + allVisits rows cell ds := by
  induction cs with
  | nil => simp [allVisits]
  | cons c cs ih => rw [List.cons_append, allVisits, allVisits, ih, Nat.add_assoc]

theorem spends_runCount (own : Nat) (kind : EventKind) :
    Spends (fun cell => if own = cell then 1 else 0) (runCount own kind) := by
  intro n m hm
  by_cases hkind : kind = .reset
  · subst hkind
    exact hm.write (Accumulator.within_empty _)
  · rw [runCount_eq hkind]
    cases hstep : (m.read own).step (kind = .current) with
    | error e => exact hm.mono fun _ => Nat.le_add_right _ _
    | ok a => exact hm.write ((hm own).step hstep)

theorem spends_runFold (own : Nat) (kind : FoldKind) (type : AttributeType) (added : Bool)
    (v : Value) :
    Spends (fun cell => if own = cell then 1 else 0) (runFold own kind type added v) := by
  intro n m hm
  rw [runFold_eq]
  cases hfold : (m.read own).fold kind v added with
  | error e => exact hm.mono fun _ => Nat.le_add_right _ _
  | ok a => exact hm.write ((hm own).fold hfold)

mutual

/-- One evaluation lets no aggregate see more events than it can come to it. -/
theorem spends_run (rows : SourceRows) :
    ∀ (c : Code) (f : Frame), Spends (fun cell => c.visits rows cell) (c.run rows f)
  | .const v, f => spends_pure _
  | .read slot position type, f => spends_pure _
  | .slotEmpty slot, f => spends_pure _
  | .and l r, f => by
      simp only [run, visits]
      refine (spends_run rows l f).bind fun a => ?_
      cases a.isTrue
      · exact spends_pure _
      · exact (spends_run rows r f).map fun _ => spends_pure _
  | .or l r, f => by
      simp only [run, visits]
      refine (spends_run rows l f).bind fun a => ?_
      cases a.isTrue
      · exact (spends_run rows r f).map fun _ => spends_pure _
      · exact spends_pure _
  | .not e, f => by
      simp only [run, visits]
      exact (spends_run rows e f).map fun _ => spends_pure _
  | .isNull e, f => by
      simp only [run, visits]
      exact (spends_run rows e f).map fun _ => spends_pure _
  | .compare op l r, f => by
      simp only [run, visits]
      exact (spends_run rows l f).bind fun _ => (spends_run rows r f).map fun _ => spends_pure _
  | .arith op l r type, f => by
      simp only [run, visits]
      exact (spends_run rows l f).bind fun _ => (spends_run rows r f).map fun _ => spends_ofExcept _
  | .call fn args type, f => by
      simp only [run, visits]
      exact (spends_runAll rows args f).map fun _ => (spends_ofExcept _).map fun _ => spends_pure _
  | .count own, f => by
      simp only [run, visits]
      exact spends_runCount own f.kind
  | .fold kind argument type own, f => by
      simp only [visits]
      by_cases hkind : f.kind = .reset
      · intro n m hm
        rw [run, hkind]
        refine (hm.write (Accumulator.within_empty _)).mono fun cell => ?_
        dsimp only
        omega
      · rw [Evaluation.run_fold hkind]
        exact (spends_run rows argument f).bind fun v => spends_runFold own kind type _ v
  | .member condition source slot, f => by
      simp only [run, visits]
      have htest (row : Event) :=
        (spends_run rows condition (f.setSlot slot (some row))).map fun v =>
          spends_pure (ε := EvalError) v.isTrue
      exact (Spends.anyM htest (rows source)).map fun _ => spends_pure _

theorem spends_runAll (rows : SourceRows) :
    ∀ (cs : List Code) (f : Frame), Spends (fun cell => allVisits rows cell cs) (runAll rows cs f)
  | [], f => spends_pure _
  | c :: cs, f => by
      simp only [runAll, allVisits]
      exact (spends_run rows c f).bind fun _ => (spends_runAll rows cs f).map fun _ => spends_pure _

end

end Code

namespace Evaluation

variable {rows : SourceRows} {x y : Evaluation} {n : Nat → Nat}

/-- The events that an evaluation may still let an aggregate see do not become more on the way to
the evaluations that it calls. -/
theorem Calls.budget (h : Calls rows x y) (hx : x.memory.Within n) :
    ∃ k, y.memory.Within k ∧
      ∀ cell, k cell + y.code.visits rows cell ≤ n cell + x.code.visits rows cell := by
  cases h with
  | andLeft | orLeft | not | isNull | compareLeft | arithLeft =>
      refine ⟨n, hx, fun cell => ?_⟩
      simp only [Code.visits]
      omega
  | @andRight l r f m m' a hl _ | @orRight l r f m m' a hl _ =>
      have hleft := Code.spends_run rows l f n m hx
      rw [hl] at hleft
      refine ⟨_, hleft, fun cell => ?_⟩
      simp only [Code.visits]
      omega
  | @compareRight op l r f m m' a hl | @arithRight op l r type f m m' a hl =>
      have hleft := Code.spends_run rows l f n m hx
      rw [hl] at hleft
      refine ⟨_, hleft, fun cell => ?_⟩
      simp only [Code.visits]
      omega
  | @argument fn before after c type f m m' vs hbefore =>
      have hfirst := Code.spends_runAll rows before f n m hx
      rw [hbefore] at hfirst
      refine ⟨_, hfirst, fun cell => ?_⟩
      simp only [Code.visits, Code.allVisits_append, Code.allVisits]
      omega
  | folded _ =>
      refine ⟨n, hx, fun cell => ?_⟩
      simp only [Code.visits]
      omega
  | @row condition source slot before after row f m m' hsource hbefore =>
      have htest (row : Event) : Run.Spends (fun cell => condition.visits rows cell)
          (condition.test rows (f.setSlot slot (some row))) :=
        (Code.spends_run rows condition _).map fun _ => Run.spends_pure _
      have hfirst := Run.Spends.anyM htest before n m hx
      rw [hbefore] at hfirst
      refine ⟨_, hfirst, fun cell => ?_⟩
      -- The row itself is one of those that are left.
      simp only [Code.visits, hsource, List.length_append, List.length_cons, Nat.add_mul,
        Nat.one_mul]
      omega

theorem Reaches.budget (h : Reaches rows x y) (hx : x.memory.Within n) :
    ∃ k, y.memory.Within k ∧
      ∀ cell, k cell + y.code.visits rows cell ≤ n cell + x.code.visits rows cell := by
  induction h with
  | refl => exact ⟨n, hx, fun _ => Nat.le_refl _⟩
  | tail _ hcall ih =>
      obtain ⟨k, hk, hle⟩ := ih
      obtain ⟨k', hk', hle'⟩ := hcall.budget hk
      exact ⟨k', hk', fun cell => Nat.le_trans (hle' cell) (hle cell)⟩

/-- A sum or an average takes the least integer away. -/
def TakesLeastAway (rows : SourceRows) (x : Evaluation) : Prop :=
  ∃ kind argument type cell m, x.code = .fold kind argument type cell ∧
    (kind = .sum ∨ kind = .avg) ∧ x.frame.kind = .expired ∧
    argument.run rows x.frame x.memory = (.ok (.long Int64.minValue), m)

/-- Taking the least integer away does not complete, whatever has been added before. -/
theorem TakesLeastAway.failsHere (h : TakesLeastAway rows x) : FailsHere rows x .overflow := by
  obtain ⟨c, f, m⟩ := x
  obtain ⟨kind, argument, type, cell, m', rfl, hkind, hexpired, hargument⟩ := h
  dsimp only at hexpired hargument
  have hremoved : decide (f.kind = .current) = false := by simp [hexpired]
  refine .fold (by simp [hexpired]) hargument ?_
  rw [hremoved]
  exact Accumulator.fold_least_eq_overflow _ hkind

/-- As long as the counts stay within range, only taking the least integer away is left to fail. -/
theorem FailsHere.takesLeastAway (h : FailsHere rows x .overflow) (hx : x.memory.Within n)
    (hcalls : ∀ fn args type, x.code = .call fn args type → fn.Completes)
    (hn : ∀ cell, n cell + x.code.visits rows cell < 2 ^ 63) : TakesLeastAway rows x := by
  cases h with
  | arith _ _ h => exact absurd h (Arithmetic.apply_ne_overflow _ _ _ _)
  | call _ h => exact absurd h ((hcalls _ _ _ rfl).apply _)
  | @count cell f m _ hkind h =>
      have hcell := hn cell
      simp only [Code.visits, if_true] at hcell
      exact absurd h ((hx cell).step_ne_error hcell _)
  | @fold kind argument type cell f m m₁ v _ hkind hargument h =>
      have hspent := Code.spends_run rows argument f n m hx
      rw [hargument] at hspent
      have hcell := hn cell
      simp only [Code.visits, if_true] at hcell
      obtain ⟨hsum, hremoved, rfl⟩ := Accumulator.fold_eq_overflow (hspent cell) (by omega) h
      refine ⟨kind, argument, type, cell, m₁, rfl, hsum, ?_, hargument⟩
      cases hf : f.kind with
      | expired => rfl
      | reset => exact absurd hf hkind
      | current => simp [hf] at hremoved

end Evaluation

namespace Code

mutual

/-- No aggregate stands in a condition on rows. -/
def isFlat : Code → Bool
  | .const _ | .read .. | .slotEmpty _ | .count _ => true
  | .and l r | .or l r | .compare _ l r | .arith _ l r _ => isFlat l && isFlat r
  | .not e | .isNull e | .fold _ e _ _ => isFlat e
  | .call _ args _ => allFlat args
  | .member condition _ _ => isStateless condition

/-- No aggregate of a list of arguments stands in a condition on rows. -/
def allFlat : List Code → Bool
  | [] => true
  | c :: cs => isFlat c && allFlat cs

end

mutual

theorem visits_of_isStateless (rows : SourceRows) (cell : Nat) :
    ∀ (c : Code), c.isStateless = true → c.visits rows cell = 0
  | .const _, _ | .read .., _ | .slotEmpty _, _ => by simp only [visits]
  | .and l r, h | .or l r, h | .compare _ l r, h | .arith _ l r _, h => by
      simp only [isStateless, Bool.and_eq_true] at h
      simp only [visits, visits_of_isStateless rows cell l h.1,
        visits_of_isStateless rows cell r h.2]
  | .not e, h | .isNull e, h => by
      simp only [isStateless] at h
      simp only [visits, visits_of_isStateless rows cell e h]
  | .member e _ _, h => by
      simp only [isStateless] at h
      simp only [visits, visits_of_isStateless rows cell e h, Nat.mul_zero]
  | .call _ args _, h => by
      simp only [isStateless] at h
      simp only [visits, allVisits_of_allStateless rows cell args h]

theorem allVisits_of_allStateless (rows : SourceRows) (cell : Nat) :
    ∀ (cs : List Code), allStateless cs = true → allVisits rows cell cs = 0
  | [], _ => by simp only [allVisits]
  | c :: cs, h => by
      simp only [allStateless, Bool.and_eq_true] at h
      simp only [allVisits, visits_of_isStateless rows cell c h.1,
        allVisits_of_allStateless rows cell cs h.2]

end

mutual

/-- Flat code comes to an aggregate at most as often as it stands in the code. -/
theorem visits_eq_count (rows : SourceRows) (cell : Nat) :
    ∀ (c : Code), c.isFlat = true → c.visits rows cell = c.cells.count cell
  | .const _, _ | .read .., _ | .slotEmpty _, _ => by simp only [visits, cells, List.count_nil]
  | .and l r, h | .or l r, h | .compare _ l r, h | .arith _ l r _, h => by
      simp only [isFlat, Bool.and_eq_true] at h
      simp only [visits, cells, List.count_append, visits_eq_count rows cell l h.1,
        visits_eq_count rows cell r h.2]
  | .not e, h | .isNull e, h => by
      simp only [isFlat] at h
      simp only [visits, cells, visits_eq_count rows cell e h]
  | .call _ args _, h => by
      simp only [isFlat] at h
      simp only [visits, cells, allVisits_eq_count rows cell args h]
  | .count own, _ => by simp only [visits, cells, List.count_singleton, beq_iff_eq]
  | .fold _ e _ own, h => by
      simp only [isFlat] at h
      simp only [visits, cells, List.count_append, List.count_singleton, beq_iff_eq,
        visits_eq_count rows cell e h]
  | .member e _ _, h => by
      simp only [isFlat] at h
      simp only [visits, cells, visits_of_isStateless rows cell e h, cells_of_isStateless e h,
        Nat.mul_zero, List.count_nil]

theorem allVisits_eq_count (rows : SourceRows) (cell : Nat) :
    ∀ (cs : List Code), allFlat cs = true → allVisits rows cell cs = (allCells cs).count cell
  | [], _ => by simp only [allVisits, allCells, List.count_nil]
  | c :: cs, h => by
      simp only [allFlat, Bool.and_eq_true] at h
      simp only [allVisits, allCells, List.count_append, visits_eq_count rows cell c h.1,
        allVisits_eq_count rows cell cs h.2]

end

end Code

namespace Evaluation

variable {context : Context} {cells : Nat → AttributeType} {rows : SourceRows}
  {x y : Evaluation}

/-- The parts of typed code are typed, whatever data they are evaluated on. -/
theorem Calls.typed_code (h : Calls rows x y) (hx : ∃ ds, x.code.Typed context cells ds) :
    ∃ ds, y.code.Typed context cells ds := by
  obtain ⟨ds, hc⟩ := hx
  cases h with
  | andLeft | orLeft | compareLeft | arithLeft | folded => exact ⟨ds, hc.1⟩
  | andRight | orRight => exact ⟨ds, hc.2⟩
  | compareRight | arithRight => exact ⟨ds, hc.2.1⟩
  | not | isNull => exact ⟨ds, hc⟩
  | argument => exact ⟨ds, (Code.AllTyped.of_append hc.1).2⟩
  | row =>
      obtain ⟨-, d, -, hcondition⟩ := hc
      exact ⟨_, hcondition⟩

theorem Reaches.typed_code (h : Reaches rows x y) (hx : ∃ ds, x.code.Typed context cells ds) :
    ∃ ds, y.code.Typed context cells ds := by
  induction h with
  | refl => exact hx
  | tail _ hcall ih => exact hcall.typed_code ih

end Evaluation

namespace Evaluator

open Evaluation

variable {context : Context} {layout : Layout}

/-- How many events an aggregate can have seen after a sequence of inputs. -/
def visitsOn (ev : Evaluator) (inputs : List (SourceRows × Frame)) (cell : Nat) : Nat :=
  (inputs.map fun input => ev.code.visits input.1 cell).sum

theorem within_after {n : Nat → Nat} (ev : Evaluator) (inputs : List (SourceRows × Frame))
    (h : ev.memory.Within n) :
    (ev.after inputs).memory.Within fun cell => n cell + ev.visitsOn inputs cell := by
  induction inputs generalizing ev n with
  | nil => exact h
  | cons input rest ih =>
      have hfirst := Code.spends_run input.1 ev.code input.2 n ev.memory h
      refine (ih (ev.eval input.1 input.2).2 hfirst).mono fun cell => ?_
      simp only [visitsOn, List.map_cons, List.sum_cons]
      exact Nat.le_of_eq (Nat.add_assoc _ _ _)

/-- Compilations and evaluations over the standard functions complete, but for one. Every expression
compiles or is refused. As long as no aggregate can have seen `2 ^ 63` events, an evaluation gives a
value or fails unless it comes to a sum or an average that takes the least integer away; in every
step that it comes to the counts of all accumulators are within range, and every function is a
built-in one and has the types and arguments that it reads by position. Where no aggregate stands in
a condition on rows, one evaluation lets it see one event. -/
theorem completes (hstandard : context.functions ⊆ Function.standard) (e : Expr) (layout : Layout) :
    ofExpr context e layout ≠ .error .overflow ∧
      ∀ ev, ofExpr context e layout = .ok ev →
        (ev.code.isFlat = true → ∀ rows cell, ev.code.visits rows cell ≤ 1) ∧
        ∀ (inputs : List (SourceRows × Frame)) (rows : SourceRows) (f : Frame),
          (∀ cell, ev.visitsOn (inputs ++ [(rows, f)]) cell < 2 ^ 63) →
          let start : Evaluation := ⟨ev.code, f, (ev.after inputs).memory⟩
          (((ev.after inputs).eval rows f).1 = .error .overflow ↔
            ∃ x, Reaches rows start x ∧ x.TakesLeastAway rows) ∧
          ∀ x, Reaches rows start x →
            (∀ cell, (x.memory.read cell).Within (2 ^ 63 - 1)) ∧
            ∀ fn args type, x.code = .call fn args type →
              ∃ b : Builtin, fn = b.function ∧
                b.resultTypeByPosition (args.map Code.type) = some (.ok type) ∧
                ∀ vs m, Code.runAll rows args x.frame x.memory = (.ok vs, m) →
                  b.applyByPosition vs = some (fn.apply vs) := by
  have hcompletes (fn : Function) (hfn : fn ∈ context.functions) : fn.Completes :=
    Function.completes_of_standard (hstandard hfn)
  constructor
  · intro h
    cases hcode : Compile.code context e layout 0 with
    | ok result =>
        rw [ofExpr, Allot.finish, hcode] at h
        cases h
    | error x =>
        rw [ofExpr, Allot.finish_of_error hcode] at h
        obtain rfl : x = .overflow := Except.error.inj h
        exact Compile.reports_code hcompletes e layout 0 hcode
  · intro ev hcompile
    obtain ⟨c, count, hcode, rfl⟩ := Allot.finish_eq_ok.1 hcompile
    obtain ⟨-, cells, htyped⟩ := Compile.typed_of_code context e hcode
    have hnodup := (Compile.allotted_of_code context e hcode).nodup
    refine ⟨fun hflat rows cell => ?_, fun inputs rows f hfew => ?_⟩
    · rw [Code.visits_eq_count rows cell c hflat]
      exact List.nodup_iff_count_le_one.1 hnodup cell
    let fresh : Evaluator := ⟨c, .fresh count⟩
    have hstart : (fresh.after inputs).memory.Within fun cell => 0 + fresh.visitsOn inputs cell :=
      within_after fresh inputs (Memory.within_fresh count _)
    have htotal (cell : Nat) :
        0 + fresh.visitsOn inputs cell + c.visits rows cell < 2 ^ 63 := by
      have hcell := hfew cell
      simp only [visitsOn, List.map_append, List.sum_append, List.map_cons, List.map_nil,
        List.sum_singleton] at hcell
      rw [Nat.zero_add]
      exact hcell
    have heval : ((fresh.after inputs).eval rows f).1 =
        (c.run rows f (fresh.after inputs).memory).1 := by
      rw [eval, Stateful.run, code_after]
      rfl
    intro start
    have hreached {x : Evaluation} (hreaches : Reaches rows start x) :
        ∃ ds, x.code.Typed context cells ds :=
      hreaches.typed_code ⟨_, htyped cells fun _ _ _ => rfl⟩
    constructor
    · rw [heval]
      constructor
      · intro h
        have hstarts : Fails rows start .overflow := ⟨_, Prod.ext h rfl⟩
        obtain ⟨x, hreaches, hfails⟩ := fails_iff.1 hstarts
        obtain ⟨k, hk, hle⟩ := hreaches.budget hstart
        refine ⟨x, hreaches, hfails.takesLeastAway hk (fun fn args type hcall => ?_) fun cell =>
          Nat.lt_of_le_of_lt (hle cell) (htotal cell)⟩
        obtain ⟨ds, hx⟩ := hreached hreaches
        rw [hcall] at hx
        exact hcompletes fn hx.2.2.2
      · rintro ⟨x, hreaches, htakes⟩
        obtain ⟨m, hrun⟩ := fails_iff.2 ⟨x, hreaches, htakes.failsHere⟩
        exact congrArg Prod.fst hrun
    · intro x hreaches
      obtain ⟨k, hk, hle⟩ := hreaches.budget hstart
      refine ⟨fun cell => (hk cell).mono ?_, fun fn args type hcall => ?_⟩
      · have hcell := Nat.lt_of_le_of_lt (hle cell) (htotal cell)
        omega
      · obtain ⟨ds, hx⟩ := hreached hreaches
        rw [hcall] at hx
        obtain ⟨-, haccepts, htype, hfn⟩ := hx
        obtain ⟨b, -, rfl⟩ := List.mem_map.1 (hstandard hfn)
        refine ⟨b, rfl, ?_, fun vs m hrun => ?_⟩
        · exact (Builtin.resultTypeByPosition_eq (by rwa [List.length_map])).trans
            (congrArg some htype)
        · exact Builtin.applyByPosition_eq (by rwa [Code.length_runAll hrun])

namespace Amounts

def slots : Layout := .single ⟨"Amount", [⟨"x", .long⟩]⟩

/-- The expression `sum(x)`. -/
def total : Expr := .call none "sum" [.named "x"]

def evaluator : Evaluator := ⟨.fold .sum (.read 0 0 .long) .long 0, .fresh 1⟩

theorem ofExpr_total : ofExpr .standard total slots = .ok evaluator := rfl

def noRows : SourceRows := fun _ => []

def added (l : Int64) : Frame := .single (.current 0 [.long l])

def removed (l : Int64) : Frame := .single ⟨0, [.long l], .expired⟩

end Amounts

/-- An amount that is added and taken away again comes to no least integer. -/
theorem completes_amounts :
    ofExpr .standard Amounts.total Amounts.slots = .ok Amounts.evaluator ∧
      ((Amounts.evaluator.after [(Amounts.noRows, Amounts.added 7)]).eval Amounts.noRows
        (Amounts.removed 7)).1 = .ok (.long 0) ∧
      ¬∃ x, Reaches Amounts.noRows
          ⟨Amounts.evaluator.code, Amounts.removed 7,
            (Amounts.evaluator.after [(Amounts.noRows, Amounts.added 7)]).memory⟩ x ∧
        x.TakesLeastAway Amounts.noRows := by
  have hresult : ((Amounts.evaluator.after [(Amounts.noRows, Amounts.added 7)]).eval Amounts.noRows
      (Amounts.removed 7)).1 = .ok (.long 0) := by
    decide +kernel
  refine ⟨Amounts.ofExpr_total, hresult, ?_⟩
  obtain ⟨-, hcompleted⟩ :=
    completes (List.Subset.refl Context.standard.functions) Amounts.total Amounts.slots
  obtain ⟨hvisits, hrun⟩ := hcompleted _ Amounts.ofExpr_total
  obtain ⟨hiff, -⟩ := hrun [(Amounts.noRows, Amounts.added 7)] Amounts.noRows (Amounts.removed 7)
    fun cell => by
      have honce := hvisits rfl Amounts.noRows cell
      simp only [visitsOn, List.map_append, List.map_cons, List.map_nil, List.sum_append,
        List.sum_singleton]
      omega
  intro hleast
  cases hresult.symm.trans (hiff.2 hleast)

/-- A sum that takes the least integer away has no result and reports no failure. -/
theorem incomplete_amounts :
    ofExpr .standard Amounts.total Amounts.slots = .ok Amounts.evaluator ∧
      (Amounts.evaluator.eval Amounts.noRows (Amounts.removed Int64.minValue)).1 =
        .error .overflow :=
  ⟨Amounts.ofExpr_total, by decide +kernel⟩

end Evaluator

end EventQuery
