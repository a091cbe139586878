import EventQuery.Eval.Aggregate

/-!
The memory of compiled expressions: one accumulator for each aggregate that occurs in them.
Everything else about a compiled expression is fixed, so a fresh memory is all that a copy for
another partition needs. A computation that fails keeps what it has written.
-/

namespace EventQuery

/-- The accumulators of the aggregates of compiled expressions, by cell. -/
structure Memory where
  cells : List Accumulator
  deriving DecidableEq, Repr, Inhabited

namespace Memory

/-- The memory of `count` aggregates that have seen no event. -/
def fresh (count : Nat) : Memory := ⟨List.replicate count .empty⟩

def read (m : Memory) (cell : Nat) : Accumulator := m.cells[cell]?.getD .empty

def write (m : Memory) (cell : Nat) (a : Accumulator) : Memory := ⟨m.cells.set cell a⟩

end Memory

/-- A computation over a memory that may fail. -/
abbrev Run (ε : Type) := ExceptT ε (StateM Memory)

namespace Run

variable {ε ε' α : Type}

def readCell (cell : Nat) : Run ε Accumulator := do return (← get).read cell

def writeCell (cell : Nat) (a : Accumulator) : Run ε Unit := modify (·.write cell a)

/-- A result that does not depend on the memory. -/
def ofExcept (result : Except ε α) : Run ε α :=
  match result with
  | .ok a => pure a
  | .error e => throw e

/-- Change the error of a computation. -/
def mapError (f : ε → ε') (run : Run ε α) : Run ε' α := fun memory =>
  match run memory with
  | (.ok a, memory) => (.ok a, memory)
  | (.error e, memory) => (.error (f e), memory)

/-- Whether some element passes a test. The elements after the first that passes are not tested. -/
def anyM (test : α → Run ε Bool) : List α → Run ε Bool
  | [] => pure false
  | a :: rest => do
    if ← test a then return true
    anyM test rest

/-- The elements that pass a test. -/
def filterM (test : α → Run ε Bool) : List α → Run ε (List α)
  | [] => pure []
  | a :: rest => do
    let passes ← test a
    let others ← filterM test rest
    return if passes then a :: others else others

end Run

/-- A compiled artifact with the memory of its aggregates. -/
structure Stateful (α : Type) where
  code : α
  memory : Memory

namespace Stateful

variable {ε α β : Type}

/-- A copy that has seen no event. -/
def fresh (s : Stateful α) : Stateful α := { s with memory := .fresh s.memory.cells.length }

/-- Run a computation of the artifact on its memory. -/
def run (s : Stateful α) (computation : α → Run ε β) : Except ε β × Stateful α :=
  let (result, memory) := computation s.code s.memory
  (result, { s with memory := memory })

end Stateful

/-- A compilation that may fail and that allots cells of the memory to the aggregates it meets. -/
abbrev Allot (ε : Type) := StateT Nat (Except ε)

namespace Allot

variable {ε ε' α : Type}

/-- The next free cell. -/
def cell : Allot ε Nat := fun next => .ok (next, next + 1)

/-- Change the error of a compilation. -/
def mapError (f : ε → ε') (compilation : Allot ε α) : Allot ε' α := fun next =>
  match compilation next with
  | .ok result => .ok result
  | .error e => .error (f e)

/-- The compiled artifact with the memory that it needs. -/
def finish (compilation : Allot ε α) : Except ε (Stateful α) :=
  match compilation 0 with
  | .ok (code, count) => .ok ⟨code, .fresh count⟩
  | .error e => .error e

end Allot

end EventQuery
