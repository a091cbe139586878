import EventQuery.Proofs.Eval.Average
import EventQuery.Proofs.Eval.Failure
import Mathlib.Data.List.DropRight

/-!
Runs of aggregates. A reset clears the accumulator of an aggregate, and every other event moves it
by one step. So what an aggregate returns along a run is read off the accumulator of the events
since the last reset.
-/

namespace EventQuery

open Run

/-! ### Runs -/

/-- The inputs after the last reset. -/
def sinceReset (inputs : List (SourceRows × Frame)) : List (SourceRows × Frame) :=
  inputs.rtakeWhile fun input => input.2.kind ≠ .reset

section SinceReset

variable {inputs : List (SourceRows × Frame)} {input : SourceRows × Frame}

theorem sinceReset_of_reset (h : input.2.kind = .reset) : sinceReset (inputs ++ [input]) = [] :=
  List.rtakeWhile_concat_neg _ _ _ (by simp [h])

theorem sinceReset_of_ne_reset (h : input.2.kind ≠ .reset) :
    sinceReset (inputs ++ [input]) = sinceReset inputs ++ [input] :=
  List.rtakeWhile_concat_pos _ _ _ (by simp [h])

theorem ne_reset_of_mem_sinceReset (h : input ∈ sinceReset inputs) : input.2.kind ≠ .reset := by
  simpa using List.mem_rtakeWhile_imp h

end SinceReset

namespace Evaluator

variable {ev : Evaluator} {inputs : List (SourceRows × Frame)} {input : SourceRows × Frame}
  {v : Value} {ws : List Value}

/-- The values of an evaluator on inputs that come one after another. -/
def results : Evaluator → List (SourceRows × Frame) → Except EvalError (List Value)
  | _, [] => .ok []
  | ev, (rows, f) :: rest =>
    match ev.eval rows f with
    | (.error cause, _) => .error cause
    | (.ok v, ev) => do return v :: (← results ev rest)

/-- On single events beside the same rows these are the outcomes. -/
theorem results_single (rows : SourceRows) (ev : Evaluator) (events : List Event) :
    ev.results (events.map fun e => (rows, .single e)) = ev.outcomes rows events := by
  induction events generalizing ev with
  | nil => rfl
  | cons e rest ih =>
      rcases heval : ev.eval rows (.single e) with ⟨cause | v, ev'⟩
      · simp only [List.map_cons, results, outcomes, heval]
      · simp only [List.map_cons, results, outcomes, heval, ih]

/-- The evaluator succeeds on every input, and returns the value on the last one. -/
def Returns (ev : Evaluator) (inputs : List (SourceRows × Frame)) (v : Value) : Prop :=
  ∃ vs, ev.results inputs = .ok (vs ++ [v])

theorem after_snoc (ev : Evaluator) (inputs : List (SourceRows × Frame))
    (input : SourceRows × Frame) :
    ev.after (inputs ++ [input]) = ((ev.after inputs).eval input.1 input.2).2 := by
  rw [after, List.foldl_append]
  rfl

/-- An evaluator that succeeds on every input has succeeded on the earlier ones. -/
theorem results_snoc (h : ev.results (inputs ++ [input]) = .ok ws) :
    ∃ vs v, ev.results inputs = .ok vs ∧
      ((ev.after inputs).eval input.1 input.2).1 = .ok v ∧ ws = vs ++ [v] := by
  induction inputs generalizing ev ws with
  | nil =>
      obtain ⟨rows, f⟩ := input
      simp only [List.nil_append, results] at h
      rcases heval : ev.eval rows f with ⟨cause | v, ev'⟩ <;> rw [heval] at h <;> cases h
      exact ⟨[], v, rfl, congrArg Prod.fst heval, rfl⟩
  | cons first rest ih =>
      obtain ⟨rows, f⟩ := first
      simp only [List.cons_append, results] at h ⊢
      rcases heval : ev.eval rows f with ⟨cause | u, ev'⟩ <;> rw [heval] at h
      · cases h
      · obtain ⟨us, hus, h⟩ := bind_eq_ok.1 h
        cases h
        obtain ⟨vs, v, hvs, hv, rfl⟩ := ih hus
        refine ⟨u :: vs, v, ?_, ?_, rfl⟩
        · change (do return u :: (← ev'.results rest)) = _
          rw [hvs]
          rfl
        · rw [after, List.foldl_cons, heval]
          exact hv

end Evaluator

/-! ### Aggregates over their accumulators -/

/-- Code that owns the one cell of its memory. A reset clears the cell, another input moves its
accumulator by a step, and the result is read off the accumulator afterwards. -/
structure Code.Accumulates (c : Code)
    (step : Accumulator → SourceRows × Frame → Except EvalError Accumulator)
    (result : Accumulator → Value) : Prop where
  reset : ∀ rows f a v m, f.kind = .reset → c.run rows f ⟨[a]⟩ = (.ok v, m) →
    m = ⟨[.empty]⟩ ∧ v = result .empty
  next : ∀ rows f a v m, f.kind ≠ .reset → c.run rows f ⟨[a]⟩ = (.ok v, m) →
    ∃ b, step a (rows, f) = .ok b ∧ m = ⟨[b]⟩ ∧ v = result b

theorem Memory.read_one (a : Accumulator) : (⟨[a]⟩ : Memory).read 0 = a := rfl

namespace Code

variable {c : Code} {kind : FoldKind} {type : AttributeType}

/-- The step of a count. -/
def countStep (a : Accumulator) (input : SourceRows × Frame) : Except EvalError Accumulator :=
  a.step (input.2.kind = .current)

/-- The step of a fold of an argument. -/
def foldStep (kind : FoldKind) (c : Code) (a : Accumulator) (input : SourceRows × Frame) :
    Except EvalError Accumulator := do
  a.fold kind (← c.value input.1 input.2) (input.2.kind = .current)

theorem accumulates_count :
    (Code.count 0).Accumulates countStep fun a => .long (.ofInt a.count) := by
  refine ⟨fun rows f a v m hreset hrun => ?_, fun rows f a v m hkind hrun => ?_⟩
  · rw [run, hreset] at hrun
    cases hrun
    exact ⟨rfl, rfl⟩
  · rw [run, runCount_eq hkind, Memory.read_one] at hrun
    cases hstep : a.step (f.kind = .current) with
    | error e =>
        rw [hstep] at hrun
        cases hrun
    | ok b =>
        rw [hstep] at hrun
        cases hrun
        exact ⟨b, hstep, rfl, rfl⟩

theorem accumulates_fold (hc : c.isStateless = true) :
    (Code.fold kind c type 0).Accumulates (foldStep kind c) fun a => a.result kind type := by
  refine ⟨fun rows f a v m hreset hrun => ?_, fun rows f a v m hkind hrun => ?_⟩
  · rw [run, hreset] at hrun
    cases hrun
    exact ⟨rfl, by cases kind <;> rfl⟩
  · rw [Evaluation.run_fold hkind] at hrun
    obtain ⟨x, m₁, hx, hrun⟩ := of_run_bind hrun
    rw [run_eq_value rows c f hc, run_ofExcept] at hx
    obtain ⟨hvalue, rfl⟩ := Prod.mk.inj hx
    rw [runFold_eq, Memory.read_one] at hrun
    cases hfold : a.fold kind x (f.kind = .current) with
    | error e =>
        rw [hfold] at hrun
        cases hrun
    | ok b =>
        rw [hfold] at hrun
        cases hrun
        exact ⟨b, bind_eq_ok.2 ⟨x, hvalue, hfold⟩, rfl, rfl⟩

variable {step : Accumulator → SourceRows × Frame → Except EvalError Accumulator}
  {result : Accumulator → Value} {inputs : List (SourceRows × Frame)} {v : Value}

/-- After a successful run the accumulator is that of the inputs since the last reset, and it gives
the value that has been returned last. -/
theorem Accumulates.after (h : c.Accumulates step result) {vs : List Value}
    (hresults : Evaluator.results ⟨c, .fresh 1⟩ inputs = .ok vs) :
    ∃ a, (Evaluator.after ⟨c, .fresh 1⟩ inputs).memory = ⟨[a]⟩ ∧
      (sinceReset inputs).foldlM step .empty = .ok a ∧
      ∀ us v, vs = us ++ [v] → v = result a := by
  induction inputs using List.reverseRecOn generalizing vs with
  | nil =>
      cases hresults
      exact ⟨.empty, rfl, rfl, fun us v hlast => by simp at hlast⟩
  | append_singleton inputs input ih =>
      obtain ⟨us, v, hus, hv, rfl⟩ := Evaluator.results_snoc hresults
      obtain ⟨a, hmemory, hfold, -⟩ := ih hus
      obtain ⟨rows, f⟩ := input
      -- The last evaluation starts from the accumulator that the others have left.
      have heval : Evaluator.eval (.after ⟨c, .fresh 1⟩ inputs) rows f =
          ((c.run rows f ⟨[a]⟩).1, ⟨c, (c.run rows f ⟨[a]⟩).2⟩) := by
        rw [Evaluator.eval, Stateful.run, Evaluator.code_after, hmemory]
        rfl
      rw [heval] at hv
      have hrun : c.run rows f ⟨[a]⟩ = (.ok v, (c.run rows f ⟨[a]⟩).2) := Prod.ext hv rfl
      have hlast (b : Accumulator) (hb : v = result b) :
          ∀ us' v', us ++ [v] = us' ++ [v'] → v' = result b := fun us' v' heq => by
        obtain ⟨-, hvalue⟩ := List.append_inj' heq rfl
        exact (List.singleton_inj.1 hvalue) ▸ hb
      rw [Evaluator.after_snoc, heval]
      by_cases hkind : f.kind = .reset
      · obtain ⟨hm, hvalue⟩ := h.reset rows f a v _ hkind hrun
        exact ⟨.empty, hm, by rw [sinceReset_of_reset hkind]; rfl, hlast _ hvalue⟩
      · obtain ⟨b, hstep, hm, hvalue⟩ := h.next rows f a v _ hkind hrun
        refine ⟨b, hm, ?_, hlast b hvalue⟩
        rw [sinceReset_of_ne_reset hkind, List.foldlM_append, hfold, ok_bind, List.foldlM_cons,
          hstep]
        rfl

/-- What is returned is read off the accumulator of the inputs since the last reset. -/
theorem Accumulates.returns (h : c.Accumulates step result)
    (hreturns : Evaluator.Returns ⟨c, .fresh 1⟩ inputs v) :
    ∃ a, (sinceReset inputs).foldlM step .empty = .ok a ∧ v = result a := by
  obtain ⟨vs, hresults⟩ := hreturns
  obtain ⟨a, -, hfold, hlast⟩ := h.after hresults
  exact ⟨a, hfold, hlast vs v rfl⟩

end Code

/-! ### What aggregates promise -/

namespace Evaluator

/-- What an evaluator returns is described by the inputs since the last reset, as long as they are
admitted. It is the same whatever order they come in, and a reset returns the identity. -/
structure Tracks (ev : Evaluator) (admits : List (SourceRows × Frame) → Prop)
    (describes : List (SourceRows × Frame) → Value → Prop) (identity : Value) : Prop where
  returned : ∀ inputs v, ev.Returns inputs v → admits (sinceReset inputs) →
    describes (sinceReset inputs) v
  reordered : ∀ inputs inputs' v v', ev.Returns inputs v → ev.Returns inputs' v' →
    admits (sinceReset inputs) → admits (sinceReset inputs') →
    (sinceReset inputs).Perm (sinceReset inputs') → v = v'
  reset : ∀ inputs rows f v, f.kind = .reset → ev.Returns (inputs ++ [(rows, f)]) v → v = identity

variable {c : Code} {step : Accumulator → SourceRows × Frame → Except EvalError Accumulator}
  {result : Accumulator → Value} {admits : List (SourceRows × Frame) → Prop}
  {describes : List (SourceRows × Frame) → Value → Prop} {identity : Value}

/-- An aggregate keeps its promise if the accumulators of the inputs that are admitted give values
as described, and a description fits one value only. -/
theorem tracks_of_accumulates (h : c.Accumulates step result)
    (hdescribes : ∀ inputs a, (∀ input ∈ inputs, input.2.kind ≠ .reset) →
      inputs.foldlM step .empty = .ok a → admits inputs → describes inputs (result a))
    (hunique : ∀ inputs inputs' v v', inputs.Perm inputs' → admits inputs →
      describes inputs v → describes inputs' v' → v = v')
    (hidentity : result .empty = identity) :
    Tracks ⟨c, .fresh 1⟩ admits describes identity := by
  have hreturned (inputs : List (SourceRows × Frame)) (v : Value)
      (hreturns : Returns ⟨c, .fresh 1⟩ inputs v) (hadmits : admits (sinceReset inputs)) :
      describes (sinceReset inputs) v := by
    obtain ⟨a, hfold, rfl⟩ := h.returns hreturns
    exact hdescribes _ a (fun _ => ne_reset_of_mem_sinceReset) hfold hadmits
  refine ⟨hreturned, fun inputs inputs' v v' hv hv' hadmits hadmits' hperm => ?_,
    fun inputs rows f v hkind hreturns => ?_⟩
  · exact hunique _ _ v v' hperm hadmits (hreturned _ _ hv hadmits) (hreturned _ _ hv' hadmits')
  · obtain ⟨a, hfold, rfl⟩ := h.returns hreturns
    rw [sinceReset_of_reset hkind] at hfold
    cases hfold
    exact hidentity

end Evaluator

end EventQuery
