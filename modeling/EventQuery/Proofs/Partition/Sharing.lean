import EventQuery.Proofs.Eval.Soundness
import EventQuery.Proofs.Partition.Copy

/-!
An artifact and its copy at work in one memory. Whatever the original has seen before, and however
the calls of both are interleaved, each answers as if it had a memory to itself: the original as it
would without the copy, and the copy as the artifact does when it is compiled anew.
-/

namespace EventQuery

/-- The kinds of compiled artifacts that are copied for partitions. -/
inductive ArtifactKind where
  | evaluator
  | plan
  | operator
  | retrieval
  deriving DecidableEq, Repr

/-- A compiled artifact. -/
inductive Artifact : ArtifactKind → Type where
  | evaluator (c : Code) : Artifact .evaluator
  | plan (p : Plan) : Artifact .plan
  | operator (o : Operator) : Artifact .operator
  | retrieval (r : Retrieval) : Artifact .retrieval

/-- What an artifact is compiled from. -/
inductive Blueprint : ArtifactKind → Type where
  | expression (context : Context) (e : Expr) (layout : Layout) : Blueprint .evaluator
  | condition (context : Context) (e : Expr) (layout : Layout) : Blueprint .evaluator
  | plan (context : Context) (c : Capability) (info : MatchLayout) (classified : Classified)
      (isFirst : Bool) : Blueprint .plan
  | operator (context : Context) (info : MatchLayout) (e : Expr) (container : Container) :
      Blueprint .operator
  | retrieval (rollup : Rollup) (rows : SourceRows) (on : Expr) (within : Within) (per : Expr)
      (matching : Definition) : Blueprint .retrieval

/-- A call of an artifact, with all that it reads. -/
inductive Call : ArtifactKind → Type where
  | type : Call .evaluator
  | evaluate (rows : SourceRows) (f : Frame) : Call .evaluator
  | narrow (s : Search) : Call .plan
  | search (s : Search) : Call .plan
  | test (s : Search) : Call .plan
  | remove (s : Search) : Call .plan
  | container : Call .operator
  | find (rows : SourceRows) (matching : Frame) (c : Container) : Call .operator
  | contains (rows : SourceRows) (matching : Frame) (c : Container) : Call .operator
  | delete (rows : SourceRows) (matching : Frame) (c : Container) : Call .operator
  | describe : Call .retrieval
  | per (rows : SourceRows) (matching : Frame) : Call .retrieval
  | retrieve (rollup : Rollup) (rows : SourceRows) (matching : Frame) : Call .retrieval
  | retrieveFrom (rows : SourceRows) (matching : Frame) (g : Granularity) (table : Holder)
      (stores : List BucketStore) : Call .retrieval

/-- The answer to a call, which may be a failure. -/
inductive Answer where
  | type (t : AttributeType)
  | container (kind : ContainerKind)
  | description (granularities : List Granularity) (output : Definition)
  | value (result : Except EvalError Value)
  | candidates (result : Except EvalError CandidateSet)
  | events (result : Except LookupError (List StoredEvent))
  | found (result : Except LookupError Bool)
  | removed (result : Except LookupError (Nat × Holder))
  | left (result : Except LookupError Nat × Container)
  | granularity (result : Except RollupError Granularity)
  | rows (result : Except RollupError (List Event × RetrievalTrace))

variable {k : ArtifactKind} {R : Memory → Memory → Prop} {σ : Nat → Nat}

namespace Artifact

def cells : Artifact k → List Nat
  | .evaluator c => c.cells
  | .plan p => p.cells
  | .operator o => o.cells
  | .retrieval r => r.cells

/-- The same artifact over other cells. -/
def rename (σ : Nat → Nat) : Artifact k → Artifact k
  | .evaluator c => .evaluator (c.rename σ)
  | .plan p => .plan (p.rename σ)
  | .operator o => .operator (o.rename σ)
  | .retrieval r => .retrieval (r.rename σ)

/-- The copy of an artifact for a partition. -/
def clone (key : String) : Artifact k → StateM Memory (Artifact k)
  | .evaluator c => do return .evaluator (← c.clone key)
  | .plan p => do return .plan (← p.clone key)
  | .operator o => do return .operator (← o.clone key)
  | .retrieval r => do return .retrieval (← r.clone key)

/-- Answer a call. -/
def answer : Artifact k → Call k → StateM Memory Answer
  | .evaluator c, .type => pure (.type c.type)
  | .evaluator c, .evaluate rows f => do return .value (← (c.run rows f).run)
  | .plan p, .narrow s => do return .candidates (← (p.findCandidates s).run)
  | .plan p, .search s => do return .events (← (p.find s).run)
  | .plan p, .test s => do return .found (← (p.contains s).run)
  | .plan p, .remove s => do return .removed (← (p.delete s).run)
  | .operator o, .container => pure (.container o.kind)
  | .operator o, .find rows matching c => do return .events (← (o.find rows matching c).run)
  | .operator o, .contains rows matching c => do return .found (← (o.contains rows matching c).run)
  | .operator o, .delete rows matching c => do return .left (← o.delete rows matching c)
  | .retrieval r, .describe => pure (.description r.granularities r.outputDefinition)
  | .retrieval r, .per rows matching => do return .granularity (← (r.perFor rows matching).run)
  | .retrieval r, .retrieve rollup rows matching => do
    return .rows (← (rollup.find rows matching r).run)
  | .retrieval r, .retrieveFrom rows matching g table stores => do
    return .rows (← (r.find rows matching g table stores).run)

/-- Answer several calls, one after another. -/
def answers (a : Artifact k) : List (Call k) → StateM Memory (List Answer)
  | [] => pure []
  | call :: rest => do
    let answer ← a.answer call
    let others ← answers a rest
    return answer :: others

/-- Answer calls of an original, on the left, and calls of its copy, on the right, in the order in
which they come, in one memory. -/
def share (original copy : Artifact k) :
    List (Call k ⊕ Call k) → StateM Memory (List Answer × List Answer)
  | [] => pure ([], [])
  | .inl call :: rest => do
    let answer ← original.answer call
    let (originals, copies) ← share original copy rest
    return (answer :: originals, copies)
  | .inr call :: rest => do
    let answer ← copy.answer call
    let (originals, copies) ← share original copy rest
    return (originals, answer :: copies)

@[simp] theorem rename_id (a : Artifact k) : a.rename id = a := by
  cases a <;> simp [rename]

/-- An artifact answers over other cells as it does over its own. -/
theorem mirrors_answer (a : Artifact k) (h : Links R σ a.cells) (call : Call k) :
    Mirrors R (a.answer call) ((a.rename σ).answer call) := by
  cases a with
  | evaluator c =>
      cases call with
      | type =>
          simp only [answer, rename, Code.type_rename]
          exact .of_pure _
      | evaluate rows f => exact (c.mirrors_run rows f h).state_bind fun _ => .of_pure _
  | plan p =>
      cases call with
      | narrow s => exact (p.mirrors_findCandidates s h).state_bind fun _ => .of_pure _
      | search s => exact (p.mirrors_find s h).state_bind fun _ => .of_pure _
      | test s => exact (p.mirrors_contains s h).state_bind fun _ => .of_pure _
      | remove s => exact (p.mirrors_delete s h).state_bind fun _ => .of_pure _
  | operator o =>
      cases call with
      | container =>
          simp only [answer, rename, Operator.kind_rename]
          exact .of_pure _
      | find rows matching c =>
          exact (o.mirrors_find rows matching c h).state_bind fun _ => .of_pure _
      | contains rows matching c =>
          exact (o.mirrors_contains rows matching c h).state_bind fun _ => .of_pure _
      | delete rows matching c =>
          exact (o.mirrors_delete rows matching c h).state_bind fun _ => .of_pure _
  | retrieval r =>
      have hr := Retrieval.linked_of_links h
      cases call with
      | describe =>
          simp only [answer, rename, Retrieval.granularities_rename]
          exact .of_pure _
      | per rows matching =>
          exact (Retrieval.mirrors_perFor hr.per rows matching).state_bind fun _ => .of_pure _
      | retrieve rollup rows matching =>
          exact (rollup.mirrors_find hr rows matching).state_bind fun _ => .of_pure _
      | retrieveFrom rows matching g table stores =>
          exact (Retrieval.mirrors_find hr rows matching g table stores).state_bind
            fun _ => .of_pure _

theorem mirrors_answers (a : Artifact k) (h : Links R σ a.cells) (calls : List (Call k)) :
    Mirrors R (a.answers calls) ((a.rename σ).answers calls) := by
  induction calls with
  | nil => exact .of_pure _
  | cons call rest ih =>
      exact (a.mirrors_answer h call).state_bind fun _ => ih.state_bind fun _ => .of_pure _

/-- Calls do not change the size of the memory. -/
theorem length_answers (a : Artifact k) (calls : List (Call k)) (m : Memory) :
    (a.answers calls m).2.cells.length = m.cells.length := by
  refine Mirrors.length_eq a.cells (fun R h => ?_) m
  have hmirrors := a.mirrors_answers h calls
  rwa [rename_id] at hmirrors

end Artifact

namespace Blueprint

/-- The artifact in a memory of its own. -/
def place {ε α : Type} (kind : α → Artifact k) (compiled : Except ε (Stateful α)) :
    Option (Stateful (Artifact k)) :=
  compiled.toOption.map fun s => ⟨kind s.code, s.memory⟩

/-- Compile an artifact; none where the compilation fails. -/
def compile : Blueprint k → Option (Stateful (Artifact k))
  | .expression context e layout => place .evaluator (Evaluator.ofExpr context e layout)
  | .condition context e layout => place .evaluator (Evaluator.ofCondition context e layout)
  | .plan context c info classified isFirst =>
    place .plan (Plan.build context c info classified isFirst).finish
  | .operator context info e container =>
    place .operator (Operator.compile context info e container).finish
  | .retrieval rollup rows on within per matching =>
    place .retrieval (rollup.compile rows on within per matching)

theorem place_eq_some {ε α : Type} {kind : α → Artifact k} {compiled : Except ε (Stateful α)}
    {s : Stateful (Artifact k)} (h : place kind compiled = some s) :
    ∃ t, compiled = .ok t ∧ s = ⟨kind t.code, t.memory⟩ := by
  cases compiled with
  | error e => cases h
  | ok t =>
      cases h
      exact ⟨t, rfl, rfl⟩

/-- An artifact that has just been compiled: its aggregates own distinct cells of a fresh memory,
and copying takes a new cell for each of them. -/
structure Fresh (s : Stateful (Artifact k)) : Prop where
  memory : ∃ count, s.memory = .fresh count ∧ Owned 0 count s.code.cells
  copies : ∀ (σ : Nat → Nat) (key : String),
    Copies σ (s.code.clone key) s.code.cells (s.code.rename σ)

theorem fresh_of_code {c : Code} {count : Nat} (h : Allotted 0 count c.cells) :
    Fresh ⟨.evaluator c, .fresh count⟩ where
  memory := ⟨count, rfl, .of_allotted h⟩
  copies _ key := (c.copies_clone key).map _

/-- Checking a constant granularity at once leaves the memory of a lookup fresh. -/
theorem retrieval_of_compile {rollup : Rollup} {rows : SourceRows} {on per : Expr} {within : Within}
    {matching : Definition} {s : Stateful Retrieval}
    (h : rollup.compile rows on within per matching = .ok s) :
    ∃ count, s.memory = .fresh count ∧ Retrieval.compile rollup.context rollup.layout rollup.tables
      on within per matching 0 = .ok (s.code, count) := by
  obtain ⟨t, ht, h⟩ := Run.bind_eq_ok.1 h
  obtain ⟨r, count, hr, rfl⟩ := Allot.finish_eq_ok.1 ht
  split at h
  · rename_i v
    obtain ⟨_, -, h⟩ := Run.bind_eq_ok.1 h
    cases h
    -- A constant has no aggregates, so its value leaves the memory alone.
    obtain ⟨n, m, hper⟩ := (Retrieval.compiled_of_compile hr).per
    obtain ⟨hconst, -⟩ := Allot.pure_eq_ok.1 hper
    refine ⟨count, ?_, hr⟩
    refine Mirrors.memory_eq (x := r.perFor rows (.empty 1)) (fun R => ?_) (.fresh count)
    have hlinks : Links R id r.per.cells := by
      rw [hconst, Code.cells]
      exact .nil
    simpa only [Retrieval.rename_id] using Retrieval.mirrors_perFor hlinks rows (.empty 1)
  · cases h
    exact ⟨count, rfl, hr⟩

theorem fresh_of_compile {b : Blueprint k} {s : Stateful (Artifact k)} (h : b.compile = some s) :
    Fresh s := by
  cases b with
  | expression context e layout =>
      obtain ⟨t, ht, rfl⟩ := place_eq_some h
      obtain ⟨c, count, hc, rfl⟩ := Allot.finish_eq_ok.1 ht
      exact fresh_of_code (Compile.allotted_of_code context e hc)
  | condition context e layout =>
      obtain ⟨t, ht, rfl⟩ := place_eq_some h
      obtain ⟨c, count, hc, rfl⟩ := Allot.finish_eq_ok.1 ht
      exact fresh_of_code (Compile.allotted_of_condition hc)
  | plan context capability info classified isFirst =>
      obtain ⟨t, ht, rfl⟩ := place_eq_some h
      obtain ⟨p, count, hp, rfl⟩ := Allot.finish_eq_ok.1 ht
      exact ⟨⟨count, rfl, .of_allotted (Plan.allotted_of_build hp)⟩,
        fun σ key => (p.copies_clone key).map _⟩
  | operator context info e container =>
      obtain ⟨t, ht, rfl⟩ := place_eq_some h
      obtain ⟨o, count, ho, rfl⟩ := Allot.finish_eq_ok.1 ht
      exact ⟨⟨count, rfl, Operator.owned_of_compile ho⟩,
        fun σ key => (o.copies_clone key).map _⟩
  | retrieval rollup rows on within per matching =>
      obtain ⟨⟨r, memory⟩, ht, rfl⟩ := place_eq_some h
      obtain ⟨count, hmemory, hr⟩ := retrieval_of_compile ht
      have hfold (key : String) := FoldCode.clone_eq key (Retrieval.compiled_of_compile hr).fold
      exact ⟨⟨count, hmemory, Retrieval.owned_of_compile hr⟩,
        fun σ key => (Retrieval.copies_clone key (hfold key)).map _⟩

end Blueprint

namespace Artifact

/-- A memory that two copies of some cells share, seen beside a memory of each of them. -/
structure Sharing (cells : List Nat) (σ : Nat → Nat) (original copy shared : Memory) : Prop where
  left : ∀ i ∈ cells, shared.read i = original.read i
  right : ∀ i ∈ cells, shared.read (σ i) = copy.read i
  bounds : ∀ i ∈ cells, i < original.cells.length ∧ i < copy.cells.length ∧
    i < shared.cells.length ∧ σ i < shared.cells.length

/-- The cells of a copy are distinct, and none of them belongs to the original. -/
structure Apart (cells : List Nat) (σ : Nat → Nat) : Prop where
  distinct : ∀ i ∈ cells, ∀ j ∈ cells, σ i = σ j → i = j
  disjoint : ∀ i ∈ cells, ∀ j ∈ cells, σ i ≠ j

section Sharing

variable {cells : List Nat} (h : Apart cells σ)
include h

/-- What the original does in the shared memory it does in its own, and the copy does not see it. -/
theorem Apart.links_original (copy : Memory) :
    Links (fun own shared => Sharing cells σ own copy shared) id cells where
  read hi hs := (hs.left _ hi).symm
  write {own shared i a} hi hs :=
    { left := fun j hj => by
        obtain ⟨hown, -, hshared, -⟩ := hs.bounds i hi
        rcases eq_or_ne i j with rfl | hij
        · rw [id, Memory.read_write_self hown, Memory.read_write_self hshared]
        · rw [id, Memory.read_write_of_ne hij, Memory.read_write_of_ne hij, hs.left j hj]
      right := fun j hj => by
        rw [id, Memory.read_write_of_ne (h.disjoint j hj i hi).symm, hs.right j hj]
      bounds := fun j hj => by simpa using hs.bounds j hj }

/-- What the copy does in the shared memory it does in a fresh one, and the original does not see
it. -/
theorem Apart.links_copy (original : Memory) :
    Links (fun own shared => Sharing cells σ original own shared) σ cells where
  read hi hs := (hs.right _ hi).symm
  write {own shared i a} hi hs :=
    { left := fun j hj => by
        rw [Memory.read_write_of_ne (h.disjoint i hi j hj), hs.left j hj]
      right := fun j hj => by
        obtain ⟨-, hown, -, hshared⟩ := hs.bounds i hi
        rcases eq_or_ne i j with rfl | hij
        · rw [Memory.read_write_self hown, Memory.read_write_self hshared]
        · have hσ : σ i ≠ σ j := fun hσ => hij (h.distinct i hi j hj hσ)
          rw [Memory.read_write_of_ne hij, Memory.read_write_of_ne hσ, hs.right j hj]
      bounds := fun j hj => by simpa using hs.bounds j hj }

end Sharing

/-- The calls of the original in an interleaving. -/
abbrev ofOriginal (calls : List (Call k ⊕ Call k)) : List (Call k) := calls.filterMap Sum.getLeft?

/-- The calls of the copy in an interleaving. -/
abbrev ofCopy (calls : List (Call k ⊕ Call k)) : List (Call k) := calls.filterMap Sum.getRight?

/-- In a shared memory the original and the copy answer as each does in its own. -/
theorem share_eq {a : Artifact k} (h : Apart a.cells σ) :
    ∀ (calls : List (Call k ⊕ Call k)) {original copy shared : Memory},
      Sharing a.cells σ original copy shared →
      (a.share (a.rename σ) calls shared).1 =
        ((a.answers (ofOriginal calls) original).1, (a.answers (ofCopy calls) copy).1)
  | [], _, _, _, _ => rfl
  | .inl call :: rest, original, copy, shared, hs => by
      have hcall := a.mirrors_answer (h.links_original copy) call
      rw [rename_id] at hcall
      have hrest := share_eq h rest (hcall.memory hs)
      simp only [share, answers, List.filterMap_cons, Sum.getLeft?_inl, Sum.getRight?_inl,
        Run.state_bind]
      rw [hcall.result hs]
      simp only [hrest]
      rfl
  | .inr call :: rest, original, copy, shared, hs => by
      have hcall := a.mirrors_answer (h.links_copy original) call
      have hrest := share_eq h rest (hcall.memory hs)
      simp only [share, answers, List.filterMap_cons, Sum.getLeft?_inr, Sum.getRight?_inr,
        Run.state_bind]
      rw [hcall.result hs]
      simp only [hrest]
      rfl

/-- A copy for a partition is fresh and independent. After any calls of a compiled artifact it is
copied, and calls of the original and of the copy follow in any order: the original answers its
calls as it would without the copy, and the copy answers its own as the artifact answers them when
it is compiled anew. -/
theorem clone_independent {b : Blueprint k} {s : Stateful (Artifact k)} (h : b.compile = some s)
    (past : List (Call k)) (key : String) (calls : List (Call k ⊕ Call k)) :
    let seen := ((s.code.answers past).run s.memory).2
    let copied := (s.code.clone key).run seen
    ((s.code.share copied.1 calls).run copied.2).1 =
      (((s.code.answers (ofOriginal calls)).run seen).1,
        ((s.code.answers (ofCopy calls)).run s.memory).1) := by
  intro seen copied
  obtain ⟨⟨count, hmemory, howned⟩, hcopies⟩ := Blueprint.fresh_of_compile h
  have hlength : seen.cells.length = count := by
    rw [show seen.cells.length = _ from s.code.length_answers past s.memory, hmemory]
    simp [Memory.fresh]
  let σ := newCell s.code.cells seen.cells.length
  have hcopied : copied = (s.code.rename σ, seen.extend s.code.cells.length) :=
    hcopies σ key seen (map_newCell howned.nodup _)
  have hapart : Apart s.code.cells σ :=
    { distinct := fun i hi j _ hij => newCell_injective hi hij
      disjoint := fun i _ j hj hij => by
        have := (howned.bounds j hj).2
        have : σ i = seen.cells.length + s.code.cells.idxOf i := rfl
        omega }
  have hsharing : Sharing s.code.cells σ seen s.memory (seen.extend s.code.cells.length) :=
    { left := fun i hi => Memory.read_extend_left (by have := howned.bounds i hi; omega)
      right := fun i _ => by
        rw [hmemory, Memory.read_fresh]
        exact Memory.read_extend_right (Nat.le_add_right _ _)
      bounds := fun i hi => by
        have := howned.bounds i hi
        have := List.idxOf_lt_length_of_mem hi
        have : σ i = seen.cells.length + s.code.cells.idxOf i := rfl
        have : s.memory.cells.length = count := by simp [hmemory, Memory.fresh]
        simp only [Memory.length_extend]
        omega }
  rw [hcopied]
  exact share_eq hapart calls hsharing

/-- The number of orders so far. -/
def orders : Blueprint .evaluator :=
  .expression .standard (.call none "count" []) (.single ⟨"Order", []⟩)

def order : Call .evaluator := .evaluate (fun _ => []) (.single (.current 0 []))

/-- Two orders come before the copy is made, which counts from one while the original goes on. -/
theorem clone_independent_orders :
    orders.compile = some ⟨.evaluator (.count 0), .fresh 1⟩ ∧
      let original : Artifact .evaluator := .evaluator (.count 0)
      let seen := ((original.answers [order, order]).run (.fresh 1)).2
      let copied := (original.clone "b").run seen
      ((original.share copied.1 [.inr order, .inl order, .inr order]).run copied.2).1 =
        ([.value (.ok (.long 3))], [.value (.ok (.long 1)), .value (.ok (.long 2))]) := by
  have hcompile : orders.compile = some ⟨.evaluator (.count 0), .fresh 1⟩ := rfl
  exact ⟨hcompile, (clone_independent hcompile [order, order] "b" _).trans (by rfl)⟩

end Artifact

end EventQuery
