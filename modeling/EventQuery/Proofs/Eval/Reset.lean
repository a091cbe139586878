import EventQuery.Proofs.Eval.Cells
import EventQuery.Proofs.Eval.Mirror
import EventQuery.Proofs.Eval.Soundness

/-!
Resets. A reset clears the aggregates that its evaluation comes to, and leaves the others as they
are. It comes to all of them where no aggregate stands behind a conjunction, a disjunction, another
aggregate or an `in`, and nothing fails.
-/

namespace EventQuery

/-- The first event of a frame is a reset, in one of the first slots. -/
def Frame.IsReset (width : Nat) (f : Frame) : Prop :=
  ∃ i < width, (∃ e, f.slot i = some e ∧ e.kind = .reset) ∧ ∀ j < i, f.slot j = none

namespace Frame

variable {f : Frame} {width : Nat}

theorem isReset_single {e : Event} (h : e.kind = .reset) (hwidth : 0 < width) :
    (single e).IsReset width := ⟨0, hwidth, ⟨e, rfl, h⟩, nofun⟩

theorem IsReset.kind_eq (h : f.IsReset width) : f.kind = .reset := by
  obtain ⟨i, -, ⟨e, he, hkind⟩, hbefore⟩ := h
  have hi : f.slots[i]? = some (some e) := by simpa [slot, Option.join_eq_some_iff] using he
  have hfirst : f.first = some e := by
    obtain ⟨hlt, hget⟩ := List.getElem?_eq_some_iff.1 hi
    refine List.findSome?_eq_some_iff.2 ⟨f.slots.take i, some e, f.slots.drop (i + 1), ?_, rfl, ?_⟩
    · rw [← hget, ← List.drop_eq_getElem_cons hlt, List.take_append_drop]
    · intro x hx
      obtain ⟨j, hj, rfl⟩ := List.mem_take_iff_getElem.1 hx
      have := hbefore j (by omega)
      simpa [slot, List.getElem?_eq_getElem (show j < f.slots.length by omega)] using this
  rw [kind, hfirst, Option.map_some, Option.getD_some, hkind]

/-- A slot behind the reset may be filled. -/
theorem IsReset.setSlot (h : f.IsReset width) (e : Option Event) :
    (f.setSlot width e).IsReset (width + 1) := by
  obtain ⟨i, hi, ⟨e', he', hkind⟩, hbefore⟩ := h
  refine ⟨i, by omega, ⟨e', ?_, hkind⟩, fun j hj => ?_⟩
  · rw [slot_setSlot, if_neg (by omega), he']
  · rw [slot_setSlot, if_neg (by omega), hbefore j hj]

end Frame

/-- Between two memories some cells have been cleared, and the others have been left alone. -/
structure Memory.Clears (m m' : Memory) (cleared : Nat → Prop) : Prop where
  length : m'.cells.length = m.cells.length
  empty : ∀ i, cleared i → m'.read i = .empty
  kept : ∀ i, ¬cleared i → m'.read i = m.read i

namespace Memory

variable {m m₁ m' : Memory} {T U : Nat → Prop} {ε α β : Type}

theorem clears_refl (m : Memory) : m.Clears m fun _ => False := ⟨rfl, nofun, fun _ _ => rfl⟩

theorem clears_write (m : Memory) (cell : Nat) : m.Clears (m.write cell .empty) (· = cell) where
  length := length_write
  empty := by
    rintro i rfl
    by_cases hi : i < m.cells.length
    · exact read_write_self hi
    · simp [read, write, hi]
  kept i hi := read_write_of_ne (Ne.symm hi)

theorem Clears.congr (h : m.Clears m' T) (hiff : ∀ i, T i ↔ U i) : m.Clears m' U := by
  rwa [show U = T from funext fun i => propext (hiff i).symm]

theorem Clears.trans (h : m.Clears m₁ T) (h' : m₁.Clears m' U) :
    m.Clears m' fun i => T i ∨ U i where
  length := h'.length.trans h.length
  empty i hi := by
    by_cases hU : U i
    · exact h'.empty i hU
    · exact (h'.kept i hU).trans (h.empty i (hi.resolve_right hU))
  kept i hi := (h'.kept i fun hU => hi (.inr hU)).trans (h.kept i fun hT => hi (.inl hT))

/-- A sequence clears what its first part clears, and where that succeeds what the rest clears. -/
theorem Clears.bind {x : Run ε α} {k : α → Run ε β} {V : α → Memory → Nat → Prop}
    (hx : m.Clears (x m).2 T)
    (hk : ∀ a m₁, x m = (.ok a, m₁) → m₁.Clears (k a m₁).2 (V a m₁)) :
    m.Clears ((x >>= k) m).2 fun i => T i ∨ ∃ a m₁, x m = (.ok a, m₁) ∧ V a m₁ i := by
  rcases hrun : x m with ⟨e | a, m₁⟩ <;> rw [hrun] at hx
  · rw [Run.bind_of_error hrun]
    refine hx.congr fun i => ⟨.inl, ?_⟩
    rintro (hT | ⟨a, m₂, hok, -⟩)
    · exact hT
    · cases hok
  · rw [Run.bind_of_ok hrun]
    refine (hx.trans (hk a m₁ hrun)).congr fun i => or_congr_right ⟨fun hV => ⟨a, m₁, rfl, hV⟩, ?_⟩
    rintro ⟨a', m₂, hok, hV⟩
    cases hok
    exact hV

/-- A sequence whose rest leaves the memory alone. -/
theorem Clears.map {x : Run ε α} {k : α → Run ε β} (hx : m.Clears (x m).2 T)
    (hk : ∀ a m₁, (k a m₁).2 = m₁) : m.Clears ((x >>= k) m).2 T := by
  refine (hx.bind (V := fun _ _ _ => False) fun a m₁ _ => ?_).congr fun i => by simp
  rw [hk]
  exact clears_refl m₁

/-- A memory whose accumulators have all been cleared is fresh. -/
theorem Clears.eq_fresh {count : Nat} (h : m.Clears m' T) (hlength : m.cells.length = count)
    (hall : ∀ i < count, T i) : m' = fresh count := by
  obtain ⟨cells⟩ := m'
  have hcells : cells.length = count := h.length.trans hlength
  refine congrArg Memory.mk (List.ext_getElem (by simp [hcells]) fun i hi _ => ?_)
  have hempty := h.empty i (hall i (hcells ▸ hi))
  simpa [read, List.getElem?_eq_getElem hi] using hempty

end Memory

/-- The cell that code reads and writes itself, where it is an aggregate. -/
def Code.ownCell? : Code → Option Nat
  | .count cell | .fold _ _ _ cell => some cell
  | _ => none

namespace Evaluation

/-- An evaluation comes to the aggregate of a cell. -/
def Touches (rows : SourceRows) (x : Evaluation) (cell : Nat) : Prop :=
  ∃ y, Reaches rows x y ∧ y.code.ownCell? = some cell

/-- Some evaluation of a list of arguments, one after another, comes to the aggregate of a cell. -/
def TouchesAll (rows : SourceRows) (cs : List Code) (f : Frame) (m : Memory) (cell : Nat) : Prop :=
  ∃ before c after vs m', cs = before ++ c :: after ∧ Code.runAll rows before f m = (.ok vs, m') ∧
    Touches rows ⟨c, f, m'⟩ cell

/-- Some evaluation of a condition on rows, up to the first one that passes, comes to the aggregate
of a cell. -/
def TouchesSome (rows : SourceRows) (condition : Code) (slot : Nat) (es : List Event) (f : Frame)
    (m : Memory) (cell : Nat) : Prop :=
  ∃ before e after m', es = before ++ e :: after ∧
    Run.anyM (fun row => condition.test rows (f.setSlot slot (some row))) before m =
      (.ok false, m') ∧
    Touches rows ⟨condition, f.setSlot slot (some e), m'⟩ cell

variable {rows : SourceRows} {f : Frame} {m : Memory} {cell : Nat} {l r c : Code}

theorem touches_iff {x : Evaluation} :
    Touches rows x cell ↔
      x.code.ownCell? = some cell ∨ ∃ y, Calls rows x y ∧ Touches rows y cell := by
  constructor
  · rintro ⟨y, hxy, hcell⟩
    rcases Relation.ReflTransGen.cases_head hxy with rfl | ⟨z, hcall, hzy⟩
    · exact .inl hcell
    · exact .inr ⟨z, hcall, y, hzy, hcell⟩
  · rintro (hcell | ⟨y, hcall, z, hyz, hcell⟩)
    · exact ⟨x, .refl, hcell⟩
    · exact ⟨z, .head hcall hyz, hcell⟩

theorem touches_leaf {x : Evaluation} (hcell : x.code.ownCell? = none)
    (hcalls : ∀ y, ¬Calls rows x y) : ¬Touches rows x cell := by
  rw [touches_iff, hcell]
  rintro (h | ⟨y, hcall, -⟩)
  · cases h
  · exact hcalls y hcall

theorem touches_and : Touches rows ⟨.and l r, f, m⟩ cell ↔ Touches rows ⟨l, f, m⟩ cell ∨
    ∃ a m₁, l.run rows f m = (.ok a, m₁) ∧ a.isTrue = true ∧ Touches rows ⟨r, f, m₁⟩ cell := by
  rw [touches_iff]
  constructor
  · rintro (h | ⟨y, hcall, h⟩)
    · cases h
    · cases hcall with
      | andLeft => exact .inl h
      | andRight hrun htrue => exact .inr ⟨_, _, hrun, htrue, h⟩
  · rintro (h | ⟨a, m₁, hrun, htrue, h⟩)
    · exact .inr ⟨_, .andLeft, h⟩
    · exact .inr ⟨_, .andRight hrun htrue, h⟩

theorem touches_or : Touches rows ⟨.or l r, f, m⟩ cell ↔ Touches rows ⟨l, f, m⟩ cell ∨
    ∃ a m₁, l.run rows f m = (.ok a, m₁) ∧ a.isTrue = false ∧ Touches rows ⟨r, f, m₁⟩ cell := by
  rw [touches_iff]
  constructor
  · rintro (h | ⟨y, hcall, h⟩)
    · cases h
    · cases hcall with
      | orLeft => exact .inl h
      | orRight hrun hfalse => exact .inr ⟨_, _, hrun, hfalse, h⟩
  · rintro (h | ⟨a, m₁, hrun, hfalse, h⟩)
    · exact .inr ⟨_, .orLeft, h⟩
    · exact .inr ⟨_, .orRight hrun hfalse, h⟩

theorem touches_not : Touches rows ⟨.not c, f, m⟩ cell ↔ Touches rows ⟨c, f, m⟩ cell := by
  rw [touches_iff]
  constructor
  · rintro (h | ⟨y, hcall, h⟩)
    · cases h
    · cases hcall
      exact h
  · exact fun h => .inr ⟨_, .not, h⟩

theorem touches_isNull : Touches rows ⟨.isNull c, f, m⟩ cell ↔ Touches rows ⟨c, f, m⟩ cell := by
  rw [touches_iff]
  constructor
  · rintro (h | ⟨y, hcall, h⟩)
    · cases h
    · cases hcall
      exact h
  · exact fun h => .inr ⟨_, .isNull, h⟩

theorem touches_compare {op : Comparison} :
    Touches rows ⟨.compare op l r, f, m⟩ cell ↔ Touches rows ⟨l, f, m⟩ cell ∨
      ∃ a m₁, l.run rows f m = (.ok a, m₁) ∧ Touches rows ⟨r, f, m₁⟩ cell := by
  rw [touches_iff]
  constructor
  · rintro (h | ⟨y, hcall, h⟩)
    · cases h
    · cases hcall with
      | compareLeft => exact .inl h
      | compareRight hrun => exact .inr ⟨_, _, hrun, h⟩
  · rintro (h | ⟨a, m₁, hrun, h⟩)
    · exact .inr ⟨_, .compareLeft, h⟩
    · exact .inr ⟨_, .compareRight hrun, h⟩

theorem touches_arith {op : Arithmetic} {type : AttributeType} :
    Touches rows ⟨.arith op l r type, f, m⟩ cell ↔ Touches rows ⟨l, f, m⟩ cell ∨
      ∃ a m₁, l.run rows f m = (.ok a, m₁) ∧ Touches rows ⟨r, f, m₁⟩ cell := by
  rw [touches_iff]
  constructor
  · rintro (h | ⟨y, hcall, h⟩)
    · cases h
    · cases hcall with
      | arithLeft => exact .inl h
      | arithRight hrun => exact .inr ⟨_, _, hrun, h⟩
  · rintro (h | ⟨a, m₁, hrun, h⟩)
    · exact .inr ⟨_, .arithLeft, h⟩
    · exact .inr ⟨_, .arithRight hrun, h⟩

theorem touches_call {fn : Function} {args : List Code} {type : AttributeType} :
    Touches rows ⟨.call fn args type, f, m⟩ cell ↔ TouchesAll rows args f m cell := by
  rw [touches_iff]
  constructor
  · rintro (h | ⟨y, hcall, h⟩)
    · cases h
    · cases hcall with
      | argument hrun => exact ⟨_, _, _, _, _, rfl, hrun, h⟩
  · rintro ⟨before, c, after, vs, m', rfl, hrun, h⟩
    exact .inr ⟨_, .argument hrun, h⟩

theorem touches_member {condition : Code} {source : String} {slot : Nat} :
    Touches rows ⟨.member condition source slot, f, m⟩ cell ↔
      TouchesSome rows condition slot (rows source) f m cell := by
  rw [touches_iff]
  constructor
  · rintro (h | ⟨y, hcall, h⟩)
    · cases h
    · cases hcall with
      | row hsource hrun => exact ⟨_, _, _, _, hsource, hrun, h⟩
  · rintro ⟨before, e, after, m', hsource, hrun, h⟩
    exact .inr ⟨_, .row hsource hrun, h⟩

/-- A reset does not evaluate the argument of an aggregate. -/
theorem touches_aggregate (hcell : c.ownCell? = some cell) (hkind : f.kind = .reset) {i : Nat} :
    Touches rows ⟨c, f, m⟩ i ↔ i = cell := by
  rw [touches_iff, hcell, Option.some.injEq, eq_comm (a := i)]
  refine ⟨?_, .inl⟩
  rintro (h | ⟨y, hcall, -⟩)
  · exact h
  · cases hcall with
    | folded hother => exact absurd hkind hother
    | _ => cases hcell

theorem touchesAll_nil : ¬TouchesAll rows [] f m cell := by
  rintro ⟨before, c, after, vs, m', h, -⟩
  simp at h

theorem touchesAll_cons {cs : List Code} :
    TouchesAll rows (c :: cs) f m cell ↔ Touches rows ⟨c, f, m⟩ cell ∨
      ∃ v m₁, c.run rows f m = (.ok v, m₁) ∧ TouchesAll rows cs f m₁ cell := by
  constructor
  · rintro ⟨before, c', after, vs, m', hcs, hrun, h⟩
    cases before with
    | nil =>
        obtain ⟨rfl, rfl⟩ := List.cons.inj hcs
        cases hrun
        exact .inl h
    | cons first before =>
        obtain ⟨rfl, rfl⟩ := List.cons.inj hcs
        obtain ⟨v, m₁, hfirst, hrun⟩ := Run.of_run_bind hrun
        obtain ⟨vs', m₂, hbefore, hrun⟩ := Run.of_run_bind hrun
        cases hrun
        exact .inr ⟨v, m₁, hfirst, before, c', after, vs', m', rfl, hbefore, h⟩
  · rintro (h | ⟨v, m₁, hfirst, before, c', after, vs, m', rfl, hrun, h⟩)
    · exact ⟨[], c, cs, [], m, rfl, rfl, h⟩
    · refine ⟨c :: before, c', after, v :: vs, m', rfl, ?_, h⟩
      rw [Code.runAll, Run.bind_of_ok hfirst, Run.bind_of_ok hrun]
      rfl

theorem touchesSome_nil {slot : Nat} : ¬TouchesSome rows c slot [] f m cell := by
  rintro ⟨before, e, after, m', h, -⟩
  simp at h

theorem touchesSome_cons {slot : Nat} {e : Event} {es : List Event} :
    TouchesSome rows c slot (e :: es) f m cell ↔
      Touches rows ⟨c, f.setSlot slot (some e), m⟩ cell ∨
        ∃ passes m₁, c.test rows (f.setSlot slot (some e)) m = (.ok passes, m₁) ∧
          passes = false ∧ TouchesSome rows c slot es f m₁ cell := by
  constructor
  · rintro ⟨before, e', after, m', hes, hrun, h⟩
    cases before with
    | nil =>
        obtain ⟨rfl, rfl⟩ := List.cons.inj hes
        cases hrun
        exact .inl h
    | cons first before =>
        obtain ⟨rfl, rfl⟩ := List.cons.inj hes
        obtain ⟨passes, m₁, hfirst, hrun⟩ := Run.of_run_bind hrun
        cases passes with
        | true => cases hrun
        | false => exact .inr ⟨false, m₁, hfirst, rfl, before, e', after, m', rfl, hrun, h⟩
  · rintro (h | ⟨passes, m₁, hfirst, rfl, before, e', after, m', rfl, hrun, h⟩)
    · exact ⟨[], e, es, m, rfl, rfl, h⟩
    · refine ⟨e :: before, e', after, m', rfl, ?_, h⟩
      rw [Run.anyM, Run.bind_of_ok hfirst]
      exact hrun

end Evaluation

namespace Code

open Evaluation Memory

variable {context : Context} {cells : Nat → AttributeType}

/-- Conditions on rows that clear what they come to are tested up to the first row that passes. -/
theorem clears_anyM {rows : SourceRows} {condition : Code} {slot : Nat} {f : Frame}
    (h : ∀ e (m : Memory), m.Clears (condition.test rows (f.setSlot slot (some e)) m).2
      (Touches rows ⟨condition, f.setSlot slot (some e), m⟩)) (es : List Event) :
    ∀ m : Memory, m.Clears
      (Run.anyM (fun row => condition.test rows (f.setSlot slot (some row))) es m).2
      (TouchesSome rows condition slot es f m) := by
  induction es with
  | nil => exact fun m => (clears_refl m).congr fun _ => iff_of_false id touchesSome_nil
  | cons e es ih =>
      intro m
      refine ((h e m).bind (V := fun passes m₁ i => passes = false ∧
        TouchesSome rows condition slot es f m₁ i) fun passes m₁ _ => ?_).congr
          fun _ => touchesSome_cons.symm
      cases passes with
      | true => exact (clears_refl m₁).congr fun _ => by simp
      | false => exact (ih m₁).congr fun _ => by simp

mutual

/-- A reset clears the aggregates that its evaluation comes to. -/
theorem clears_run (rows : SourceRows) :
    ∀ (c : Code) {ds : List Definition} {f : Frame}, c.Typed context cells ds →
      f.IsReset ds.length → ∀ m : Memory, m.Clears (c.run rows f m).2 (Touches rows ⟨c, f, m⟩)
  | .const _, _, _, _, _, m | .read .., _, _, _, _, m | .slotEmpty _, _, _, _, _, m =>
      (clears_refl m).congr fun _ => (iff_of_false id (touches_leaf rfl nofun))
  | .and l r, _, f, hc, hf, m => by
      refine ((clears_run rows l hc.1 hf m).bind (V := fun a m₁ i => a.isTrue = true ∧
        Touches rows ⟨r, f, m₁⟩ i) fun a m₁ _ => ?_).congr fun _ => touches_and.symm
      cases a.isTrue with
      | true => exact ((clears_run rows r hc.2 hf m₁).map fun _ _ => rfl).congr fun _ => by simp
      | false => exact (clears_refl m₁).congr fun _ => by simp
  | .or l r, _, f, hc, hf, m => by
      refine ((clears_run rows l hc.1 hf m).bind (V := fun a m₁ i => a.isTrue = false ∧
        Touches rows ⟨r, f, m₁⟩ i) fun a m₁ _ => ?_).congr fun _ => touches_or.symm
      cases a.isTrue with
      | true => exact (clears_refl m₁).congr fun _ => by simp
      | false => exact ((clears_run rows r hc.2 hf m₁).map fun _ _ => rfl).congr fun _ => by simp
  | .not e, _, _, hc, hf, m =>
      ((clears_run rows e hc hf m).map fun _ _ => rfl).congr fun _ => touches_not.symm
  | .isNull e, _, _, hc, hf, m =>
      ((clears_run rows e hc hf m).map fun _ _ => rfl).congr fun _ => touches_isNull.symm
  | .compare op l r, _, _, hc, hf, m =>
      ((clears_run rows l hc.1 hf m).bind fun _ m₁ _ =>
        (clears_run rows r hc.2.1 hf m₁).map fun _ _ => rfl).congr fun _ => touches_compare.symm
  | .arith op l r type, _, _, hc, hf, m =>
      ((clears_run rows l hc.1 hf m).bind fun _ m₁ _ =>
        (clears_run rows r hc.2.1 hf m₁).map fun _ _ => by
          rw [Run.run_ofExcept]).congr fun _ => touches_arith.symm
  | .call fn args type, _, _, hc, hf, m => by
      refine ((clears_runAll rows args hc.1 hf m).map fun vs m₁ => ?_).congr
        fun _ => touches_call.symm
      cases fn.apply vs <;> rfl
  | .count cell, _, f, _, hf, m => by
      rw [run, hf.kind_eq]
      exact (clears_write m cell).congr fun _ => (touches_aggregate rfl hf.kind_eq).symm
  | .fold kind argument type cell, _, f, _, hf, m => by
      rw [run, hf.kind_eq]
      exact (clears_write m cell).congr fun _ => (touches_aggregate rfl hf.kind_eq).symm
  | .member condition source slot, ds, f, hc, hf, m => by
      obtain ⟨rfl, d, -, hcondition⟩ := hc
      refine (Clears.map ?_ fun _ _ => rfl).congr fun _ => touches_member.symm
      have hwidth : (ds ++ [d]).length = ds.length + 1 := by simp
      have htest (e : Event) (m : Memory) := (clears_run rows condition hcondition
        (hwidth ▸ hf.setSlot (some e)) m).map (k := fun v => pure v.isTrue) fun _ _ => rfl
      exact clears_anyM htest (rows source) m

theorem clears_runAll (rows : SourceRows) :
    ∀ (cs : List Code) {ds : List Definition} {f : Frame}, AllTyped context cells cs ds →
      f.IsReset ds.length → ∀ m : Memory, m.Clears (runAll rows cs f m).2 (TouchesAll rows cs f m)
  | [], _, _, _, _, m => (clears_refl m).congr fun _ => iff_of_false id touchesAll_nil
  | c :: cs, _, _, hcs, hf, m =>
      ((clears_run rows c hcs.1 hf m).bind fun _ m₁ _ =>
        (clears_runAll rows cs hcs.2 hf m₁).map fun _ _ => rfl).congr
          fun _ => touchesAll_cons.symm

end

mutual

/-- Every aggregate is evaluated whenever the code is: none stands on the right of a conjunction or
a disjunction, in the argument of another aggregate or in a condition on rows. -/
def isStrict : Code → Bool
  | .const _ | .read .. | .slotEmpty _ | .count _ => true
  | .and l r | .or l r => isStrict l && isStateless r
  | .compare _ l r | .arith _ l r _ => isStrict l && isStrict r
  | .not e | .isNull e => isStrict e
  | .call _ args _ => allStrict args
  | .fold _ e _ _ | .member e _ _ => isStateless e

/-- Every argument of a list is strict. -/
def allStrict : List Code → Bool
  | [] => true
  | c :: cs => isStrict c && allStrict cs

end

mutual

/-- Strict code that gives a value has come to all of its aggregates. -/
theorem touches_of_isStrict (rows : SourceRows) :
    ∀ (c : Code) {f : Frame} {m m' : Memory} {v : Value}, c.isStrict = true →
      c.run rows f m = (.ok v, m') → ∀ i ∈ c.cells, Touches rows ⟨c, f, m⟩ i
  | .const _, _, _, _, _, _, _, i, hi | .read .., _, _, _, _, _, _, i, hi
  | .slotEmpty _, _, _, _, _, _, _, i, hi => by
      rw [cells] at hi
      cases hi
  | .and l r, f, m, _, _, h, hrun, i, hi => by
      simp only [isStrict, Bool.and_eq_true] at h
      rw [cells, cells_of_isStateless r h.2, List.append_nil] at hi
      rw [run] at hrun
      obtain ⟨a, m₁, hl, -⟩ := Run.of_run_bind hrun
      exact touches_and.2 (.inl (touches_of_isStrict rows l h.1 hl i hi))
  | .or l r, f, m, _, _, h, hrun, i, hi => by
      simp only [isStrict, Bool.and_eq_true] at h
      rw [cells, cells_of_isStateless r h.2, List.append_nil] at hi
      rw [run] at hrun
      obtain ⟨a, m₁, hl, -⟩ := Run.of_run_bind hrun
      exact touches_or.2 (.inl (touches_of_isStrict rows l h.1 hl i hi))
  | .not e, f, m, _, _, h, hrun, i, hi => by
      rw [cells] at hi
      rw [run] at hrun
      obtain ⟨a, m₁, he, -⟩ := Run.of_run_bind hrun
      exact touches_not.2 (touches_of_isStrict rows e h he i hi)
  | .isNull e, f, m, _, _, h, hrun, i, hi => by
      rw [cells] at hi
      rw [run] at hrun
      obtain ⟨a, m₁, he, -⟩ := Run.of_run_bind hrun
      exact touches_isNull.2 (touches_of_isStrict rows e h he i hi)
  | .compare op l r, f, m, _, _, h, hrun, i, hi => by
      simp only [isStrict, Bool.and_eq_true] at h
      rw [cells] at hi
      rw [run] at hrun
      obtain ⟨a, m₁, hl, hrun⟩ := Run.of_run_bind hrun
      obtain ⟨b, m₂, hr, -⟩ := Run.of_run_bind hrun
      rcases List.mem_append.1 hi with hi | hi
      · exact touches_compare.2 (.inl (touches_of_isStrict rows l h.1 hl i hi))
      · exact touches_compare.2 (.inr ⟨a, m₁, hl, touches_of_isStrict rows r h.2 hr i hi⟩)
  | .arith op l r type, f, m, _, _, h, hrun, i, hi => by
      simp only [isStrict, Bool.and_eq_true] at h
      rw [cells] at hi
      rw [run] at hrun
      obtain ⟨a, m₁, hl, hrun⟩ := Run.of_run_bind hrun
      obtain ⟨b, m₂, hr, -⟩ := Run.of_run_bind hrun
      rcases List.mem_append.1 hi with hi | hi
      · exact touches_arith.2 (.inl (touches_of_isStrict rows l h.1 hl i hi))
      · exact touches_arith.2 (.inr ⟨a, m₁, hl, touches_of_isStrict rows r h.2 hr i hi⟩)
  | .call fn args type, f, m, _, _, h, hrun, i, hi => by
      rw [cells] at hi
      rw [run] at hrun
      obtain ⟨vs, m₁, hargs, -⟩ := Run.of_run_bind hrun
      exact touches_call.2 (touchesAll_of_allStrict rows args h hargs i hi)
  | .count cell, f, m, _, _, _, _, i, hi => by
      rw [cells, List.mem_singleton] at hi
      exact touches_iff.2 (.inl (congrArg some hi.symm))
  | .fold kind argument type cell, f, m, _, _, h, _, i, hi => by
      rw [cells, cells_of_isStateless argument h, List.nil_append, List.mem_singleton] at hi
      exact touches_iff.2 (.inl (congrArg some hi.symm))
  | .member condition source slot, _, _, _, _, h, _, i, hi => by
      rw [cells, cells_of_isStateless condition h] at hi
      cases hi

theorem touchesAll_of_allStrict (rows : SourceRows) :
    ∀ (cs : List Code) {f : Frame} {m m' : Memory} {vs : List Value}, allStrict cs = true →
      runAll rows cs f m = (.ok vs, m') → ∀ i ∈ allCells cs, TouchesAll rows cs f m i
  | [], _, _, _, _, _, _, i, hi => by
      rw [allCells] at hi
      cases hi
  | c :: cs, f, m, _, _, h, hrun, i, hi => by
      simp only [allStrict, Bool.and_eq_true] at h
      rw [allCells] at hi
      rw [runAll] at hrun
      obtain ⟨v, m₁, hc, hrun⟩ := Run.of_run_bind hrun
      obtain ⟨vs, m₂, hcs, -⟩ := Run.of_run_bind hrun
      rcases List.mem_append.1 hi with hi | hi
      · exact touchesAll_cons.2 (.inl (touches_of_isStrict rows c h.1 hc i hi))
      · exact touchesAll_cons.2 (.inr ⟨v, m₁, hc, touchesAll_of_allStrict rows cs h.2 hcs i hi⟩)

end

/-- Running code does not change the size of the memory. -/
theorem length_run (c : Code) (rows : SourceRows) (f : Frame) (m : Memory) :
    (c.run rows f m).2.cells.length = m.cells.length := by
  refine Mirrors.length_eq c.cells (fun R h => ?_) m
  have hmirrors := mirrors_run rows c f h
  rwa [rename_id] at hmirrors

end Code

namespace Evaluator

variable {context : Context} {e : Expr} {layout : Layout} {ev : Evaluator}

theorem length_after (ev : Evaluator) (inputs : List (SourceRows × Frame)) :
    (ev.after inputs).memory.cells.length = ev.memory.cells.length := by
  induction inputs generalizing ev with
  | nil => rfl
  | cons input rest ih => exact (ih (ev.eval input.1 input.2).2).trans (ev.code.length_run _ _ _)

/-- What a reset does to an evaluator. After any history it clears the aggregates that its
evaluation comes to and no others. Where it comes to all of them, the evaluator is afterwards as it
was when it was compiled, and so gives the same results from there on; it does come to all of them
where the code is strict and the reset does not fail. -/
theorem reset_clears (hcompile : ofExpr context e layout = .ok ev)
    (history : List (SourceRows × Frame)) (rows : SourceRows) {f : Frame}
    (hreset : f.IsReset layout.slots.length) :
    let before := ev.after history
    let reached := Evaluation.Touches rows ⟨ev.code, f, before.memory⟩
    before.memory.Clears (before.eval rows f).2.memory reached ∧
      ((∀ cell ∈ ev.code.cells, reached cell) → (before.eval rows f).2 = ev) ∧
      (ev.code.isStrict = true → (∃ v, (before.eval rows f).1 = .ok v) →
        ∀ cell ∈ ev.code.cells, reached cell) := by
  intro before reached
  obtain ⟨c, count, hc, rfl⟩ := Allot.finish_eq_ok.1 hcompile
  obtain ⟨-, cells, htyped⟩ := Compile.typed_of_code context e hc
  have hcells := Compile.allotted_of_code context e hc
  have hcode : before.code = c := code_after _ history
  have hlength : before.memory.cells.length = count :=
    (length_after _ history).trans (by simp [Memory.fresh])
  have heval : before.eval rows f =
      ((c.run rows f before.memory).1, ⟨c, (c.run rows f before.memory).2⟩) := by
    rw [eval, Stateful.run, hcode]
    rfl
  have hclears : before.memory.Clears (c.run rows f before.memory).2 reached :=
    Code.clears_run rows c (htyped cells fun _ _ _ => rfl)
      (by simpa [Layout.definitions] using hreset) before.memory
  rw [heval]
  refine ⟨hclears, fun hall => ?_, fun hstrict hok => ?_⟩
  · refine congrArg (Stateful.mk c) (hclears.eq_fresh hlength fun i hi => hall i ?_)
    exact (hcells.mem_iff i).2 ⟨Nat.zero_le i, hi⟩
  · obtain ⟨v, hv⟩ := hok
    exact Code.touches_of_isStrict rows c hstrict (Prod.ext hv rfl)

namespace Prices

def reset : SourceRows × Frame := (fun _ => [], .single (.reset 0))

/-- The condition `price > 5`. -/
def high : Code := .compare .greater (.read 0 0 .int) (.const (.int 5))

/-- The condition `count() > 1`. -/
def repeated : Code := .compare .greater (.count 0) (.const (.int 1))

def highExpr : Expr := .compare .greater (.named "price") (.const (.int 5))

def repeatedExpr : Expr := .compare .greater (.call none "count" []) (.const (.int 1))

theorem isReset_reset : reset.2.IsReset slots.slots.length :=
  Frame.isReset_single rfl (by decide)

end Prices

/-- The condition `count() > 1 and price > 5` starts anew after a reset. -/
theorem reset_clears_prices :
    ofExpr .standard (.and Prices.repeatedExpr Prices.highExpr) Prices.slots =
        .ok ⟨.and Prices.repeated Prices.high, .fresh 1⟩ ∧
      Prices.reset.2.IsReset Prices.slots.slots.length ∧
      let ev : Evaluator := ⟨.and Prices.repeated Prices.high, .fresh 1⟩
      ((ev.after [Prices.price 9, Prices.price 9]).eval Prices.reset.1 Prices.reset.2).2 = ev := by
  have hcompile : ofExpr .standard (.and Prices.repeatedExpr Prices.highExpr) Prices.slots =
      .ok ⟨.and Prices.repeated Prices.high, .fresh 1⟩ := rfl
  obtain ⟨-, hfresh, hreached⟩ := reset_clears hcompile [Prices.price 9, Prices.price 9]
    Prices.reset.1 Prices.isReset_reset
  exact ⟨hcompile, Prices.isReset_reset, hfresh (hreached rfl ⟨.bool false, by decide +kernel⟩)⟩

/-- In `price > 5 and count() > 1` the reset has no price, so it stops before it comes to the count.
The second high price is then taken for a repeated one. -/
theorem reset_misses_guarded :
    ofExpr .standard (.and Prices.highExpr Prices.repeatedExpr) Prices.slots =
        .ok ⟨.and Prices.high Prices.repeated, .fresh 1⟩ ∧
      Prices.reset.2.IsReset Prices.slots.slots.length ∧
      let ev : Evaluator := ⟨.and Prices.high Prices.repeated, .fresh 1⟩
      ((ev.after [Prices.price 9, Prices.reset]).eval (Prices.price 9).1 (Prices.price 9).2).1 =
          .ok (.bool true) ∧
        (ev.eval (Prices.price 9).1 (Prices.price 9).2).1 = .ok (.bool false) :=
  ⟨rfl, Prices.isReset_reset, by decide +kernel⟩

end Evaluator

end EventQuery
