import EventQuery.Lookup.Operator
import EventQuery.Proofs.Eval.Mirror

/-!
Plans and operators over other cells. Searching a container does the same over other cells, whatever
is asked: to narrow down, to find, to test or to delete.
-/

namespace EventQuery

variable {R : Memory → Memory → Prop} {σ : Nat → Nat}

namespace Plan

/-- The cells of a verifier, where there is one. -/
def verifierCells (verifier : Option Code) : List Nat := (verifier.map Code.cells).getD []

/-- The cells of the aggregates, in the order of the plan. -/
def cells : Plan → List Nat
  | .compare _ _ _ value => value.cells
  | .isNull _ => []
  | .gate condition => condition.cells
  | .gated condition inner => condition.cells ++ cells inner
  | .both l r verifier => cells l ++ (cells r ++ verifierCells verifier)
  | .narrowed indexed verifier => cells indexed ++ verifierCells verifier
  | .either l r verifier => cells l ++ (cells r ++ verifierCells verifier)
  | .complement inner verifier => cells inner ++ verifierCells verifier
  | .scan verifier => verifierCells verifier

/-- The same plan over other cells. -/
def rename (σ : Nat → Nat) : Plan → Plan
  | .compare name op position value => .compare name op position (value.rename σ)
  | .isNull name => .isNull name
  | .gate condition => .gate (condition.rename σ)
  | .gated condition inner => .gated (condition.rename σ) (rename σ inner)
  | .both l r verifier => .both (rename σ l) (rename σ r) (verifier.map (Code.rename σ))
  | .narrowed indexed verifier => .narrowed (rename σ indexed) (verifier.map (Code.rename σ))
  | .either l r verifier => .either (rename σ l) (rename σ r) (verifier.map (Code.rename σ))
  | .complement inner verifier => .complement (rename σ inner) (verifier.map (Code.rename σ))
  | .scan verifier => .scan (verifier.map (Code.rename σ))

theorem map_rename_id (verifier : Option Code) : verifier.map (Code.rename id) = verifier := by
  cases verifier <;> simp

@[simp] theorem rename_id (p : Plan) : p.rename id = p := by
  induction p with
  | gated _ _ ih | narrowed _ _ ih | complement _ _ ih => simp [rename, ih, map_rename_id]
  | both _ _ _ hl hr | either _ _ _ hl hr => simp [rename, hl, hr, map_rename_id]
  | _ => simp [rename, map_rename_id]

@[simp] theorem kindName_rename (p : Plan) : (p.rename σ).kindName = p.kindName := by
  cases p <;> rfl

end Plan

namespace Search

theorem mirrors_filter (s : Search) (condition : Code) (events : EventSet)
    (h : Links R σ condition.cells) :
    Mirrors R (s.filter condition events) (s.filter (condition.rename σ) events) :=
  Mirrors.filterM (fun e => Code.mirrors_test s.rows condition (s.candidate e) h) events

theorem mirrors_verify (s : Search) (candidates : CandidateSet) (verifier : Option Code)
    (h : Links R σ (Plan.verifierCells verifier)) :
    Mirrors R (s.verify candidates verifier)
      (s.verify candidates (verifier.map (Code.rename σ))) := by
  cases verifier with
  | none => cases candidates <;> exact .ok _
  | some condition =>
      cases candidates with
      | exact events => exact .ok _
      | superset events => exact (s.mirrors_filter condition events h).bind fun _ => .ok _
      | all => exact (s.mirrors_filter condition s.holder.events h).bind fun _ => .ok _

end Search

namespace Plan

variable (s : Search)

theorem mirrors_findCandidates (p : Plan) (h : Links R σ p.cells) :
    Mirrors R (p.findCandidates s) ((p.rename σ).findCandidates s) := by
  induction p with
  | compare name op position value =>
      simp only [findCandidates, rename]
      refine (Code.mirrors_run s.rows value s.matching h).bind fun probe => ?_
      split
      · exact .ok _
      · split <;> exact .ok _
  | isNull name => exact .ok _
  | gate condition =>
      simp only [findCandidates, rename]
      refine (Code.mirrors_test s.rows condition s.matching h).bind fun opened => ?_
      split <;> exact .ok _
  | gated condition inner ih =>
      simp only [findCandidates, rename]
      refine (Code.mirrors_test s.rows condition s.matching h.left).bind fun opened => ?_
      split
      · exact ih h.right
      · exact .ok _
  | both l r verifier ihl ihr =>
      simp only [findCandidates, rename]
      refine (ihl h.left).bind fun left => ?_
      split
      · exact s.mirrors_verify _ verifier h.right.right
      · exact (ihr h.right.left).bind fun right => s.mirrors_verify _ verifier h.right.right
  | narrowed indexed verifier ih =>
      simp only [findCandidates, rename]
      refine (ih h.left).bind fun candidates => ?_
      split
      · exact .ok _
      · exact s.mirrors_verify _ verifier h.right
  | either l r verifier ihl ihr =>
      simp only [findCandidates, rename]
      exact (ihl h.left).bind fun left => (ihr h.right.left).bind fun right =>
        s.mirrors_verify _ verifier h.right.right
  | complement inner verifier ih =>
      simp only [findCandidates, rename]
      exact (ih h.left).bind fun candidates => s.mirrors_verify _ verifier h.right
  | scan verifier => exact s.mirrors_verify .all verifier h

theorem mirrors_find (p : Plan) (h : Links R σ p.cells) :
    Mirrors R (p.find s) ((p.rename σ).find s) := by
  simp only [find, kindName_rename]
  refine (p.mirrors_findCandidates s h).mapError LookupError.eval |>.bind fun candidates => ?_
  cases candidates with
  | exact events => exact .ok _
  | superset events => exact .throw _
  | all => exact .throw _

theorem mirrors_contains (p : Plan) (h : Links R σ p.cells) :
    Mirrors R (p.contains s) ((p.rename σ).contains s) := by
  induction p with
  | compare name op position value =>
      have hfind := mirrors_find s (.compare name op position value) h
      simp only [contains, rename]
      split
      · exact hfind.bind fun _ => .ok _
      · exact ((Code.mirrors_run s.rows value s.matching h).mapError LookupError.eval).bind
          fun _ => .ok _
  | isNull name => exact .ok _
  | gate condition =>
      exact ((Code.mirrors_test s.rows condition s.matching h).mapError LookupError.eval).bind
        fun _ => .ok _
  | gated condition inner ih =>
      simp only [contains, rename]
      refine ((Code.mirrors_test s.rows condition s.matching h.left).mapError LookupError.eval).bind
        fun opened => ?_
      split
      · exact ih h.right
      · exact .ok _
  | _ => exact (mirrors_find s _ h).bind fun _ => .ok _

theorem mirrors_delete (p : Plan) (h : Links R σ p.cells) :
    Mirrors R (p.delete s) ((p.rename σ).delete s) := by
  cases p with
  | compare name op position value =>
      have hfind := mirrors_find s (.compare name op position value) h
      simp only [delete, rename]
      split
      · exact hfind.bind fun _ => .ok _
      · exact ((Code.mirrors_run s.rows value s.matching h).mapError LookupError.eval).bind
          fun _ => .ok _
  | _ => exact (mirrors_find s _ h).bind fun _ => .ok _

end Plan

namespace Operator

/-- The cells of the aggregates of an operator. -/
def cells (o : Operator) : List Nat :=
  match o.strategy with
  | .plan p => p.cells
  | .scan _ condition => condition.cells

/-- The same operator over other cells. -/
def rename (σ : Nat → Nat) (o : Operator) : Operator :=
  match o.strategy with
  | .plan p => ⟨.plan (p.rename σ), o.storeSlot⟩
  | .scan kind condition => ⟨.scan kind (condition.rename σ), o.storeSlot⟩

@[simp] theorem rename_id (o : Operator) : o.rename id = o := by
  obtain ⟨p | ⟨kind, condition⟩, slot⟩ := o <;> simp [rename]

@[simp] theorem kind_rename (o : Operator) : (o.rename σ).kind = o.kind := by
  obtain ⟨p | ⟨kind, condition⟩, slot⟩ := o <;> rfl

theorem mirrors_accepts {o : Operator} (rows : SourceRows) (matching : Frame) (condition : Code)
    (e : StoredEvent) (h : Links R σ condition.cells) :
    Mirrors R (o.accepts rows matching condition e)
      (o.accepts rows matching (condition.rename σ) e) :=
  (Code.mirrors_test rows condition _ h).mapError LookupError.eval

theorem mirrors_retain {ε α : Type} {test test' : α → Run ε Bool}
    (h : ∀ a, Mirrors R (test a) (test' a)) (as : List α) :
    Mirrors R (retain test as) (retain test' as) := by
  induction as with
  | nil => exact .of_pure _
  | cons a rest ih =>
      refine (h a).state_bind fun hit => ih.state_bind fun kept => ?_
      rcases hit with e | passes
      · exact .of_pure _
      · cases passes <;> exact .of_pure _

theorem mirrors_retainIn {α : Type} {test test' : α → Run LookupError Bool}
    (h : ∀ a, Mirrors R (test a) (test' a)) (entries : List α) (wrap : List α → Container) :
    Mirrors R (retainIn test entries wrap) (retainIn test' entries wrap) :=
  (mirrors_retain h entries).state_bind fun _ => .of_pure _

variable (rows : SourceRows) (matching : Frame) (c : Container)

theorem mirrors_find (o : Operator) (h : Links R σ o.cells) :
    Mirrors R (o.find rows matching c) ((o.rename σ).find rows matching c) := by
  obtain ⟨p | ⟨kind, condition⟩, slot⟩ := o
  · cases c with
    | indexed holder capability => exact p.mirrors_find ⟨rows, holder, slot, matching⟩ h
    | _ => exact .throw _
  · simp only [find, rename]
    split
    · exact Mirrors.filterM (fun e => mirrors_accepts rows matching condition e h) c.events
    · exact .throw _

theorem mirrors_contains (o : Operator) (h : Links R σ o.cells) :
    Mirrors R (o.contains rows matching c) ((o.rename σ).contains rows matching c) := by
  obtain ⟨p | ⟨kind, condition⟩, slot⟩ := o
  · cases c with
    | indexed holder capability => exact p.mirrors_contains ⟨rows, holder, slot, matching⟩ h
    | _ => exact .throw _
  · simp only [contains, rename]
    split
    · exact Mirrors.anyM (fun e => mirrors_accepts rows matching condition e h) c.events
    · exact .throw _

theorem mirrors_delete (o : Operator) (h : Links R σ o.cells) :
    Mirrors R (o.delete rows matching c) ((o.rename σ).delete rows matching c) := by
  obtain ⟨p | ⟨kind, condition⟩, slot⟩ := o
  · cases c with
    | indexed holder capability =>
        refine (p.mirrors_delete ⟨rows, holder, slot, matching⟩ h).state_bind fun result => ?_
        rcases result with e | ⟨removed, holder⟩ <;> exact .of_pure _
    | _ => exact .of_pure _
  · have htest (e : StoredEvent) :=
      mirrors_accepts (o := ⟨.scan kind condition, slot⟩) rows matching condition e h
    simp only [delete, rename]
    split
    · cases c with
      | chunk events => exact mirrors_retainIn htest events .chunk
      | map entries => exact mirrors_retainIn (fun entry => htest entry.2) entries .map
      | collection events => exact mirrors_retainIn htest events .collection
      | _ => exact .of_pure _
    · exact .of_pure _

end Operator

end EventQuery
