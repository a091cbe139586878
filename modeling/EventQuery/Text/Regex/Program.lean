import EventQuery.Text.Regex.Basic
import EventQuery.Text.Regex.Bytes

/-!
Programs that match regular expressions byte by byte. An expression becomes a program that reads a
text forwards, and one that reads it backwards; either must fit into a bounded memory. Each copy of
a repetition is written out.
-/

namespace EventQuery.Text

/-- A step to another instruction over a byte of a range. -/
structure ByteStep where
  bytes : ByteRange
  next : Nat
  deriving DecidableEq, Repr, Inhabited

/-- An instruction of a program; `next` and the like are places of instructions. -/
inductive Instruction where
  | jump (next : Nat)
  | read (step : ByteStep)
  | branch (steps : List ByteStep)
  | look (test : Look) (next : Nat)
  | fork (nexts : List Nat)
  | fail
  | accept
  deriving Inhabited

/-- Let an instruction go on at a place; a fork gets a further way. -/
def Instruction.connect (target : Nat) : Instruction → Instruction
  | .jump _ => .jump target
  | .read step => .read { step with next := target }
  | .look test _ => .look test target
  | .fork nexts => .fork (target :: nexts)
  | instruction => instruction

/-- A program under construction. `links` counts the steps of its branches and `ways` the ways of
its forks. Each of the `slots` remembers the key and the place of an instruction that may be used
again within the class at work, which begins at `classStart`. -/
structure Draft where
  instructions : Array Instruction
  links : Nat
  ways : Nat
  slots : Array (Option (List Nat × Nat))
  classStart : Nat

namespace Draft

/-- An empty program with so many slots. -/
def initial (slots : Nat) : Draft := ⟨#[], 0, 0, Array.replicate slots none, 0⟩

/-- The memory of a program in bytes. -/
def memory (d : Draft) : Nat := 32 * d.instructions.size + 8 * d.links + 4 * d.ways

/-- The greatest memory of a program. -/
def memoryLimit : Nat := 10485760

end Draft

/-- Construction of a program, which fails when the memory is used up. -/
abbrev Assembly := StateT Draft Option

/-- A part of a program with one entry and one exit. -/
structure Fragment where
  entry : Nat
  exit : Nat

namespace Assembly

/-- Fail when the memory is used up. -/
def check (d : Draft) : Option (Unit × Draft) :=
  if d.memory ≤ Draft.memoryLimit then some ((), d) else none

/-- Append an instruction and give its place. -/
def emit (instruction : Instruction) : Assembly Nat := do
  modify fun d => { d with instructions := d.instructions.push instruction }
  check
  return (← get).instructions.size - 1

/-- A fragment of one instruction. -/
def single (instruction : Instruction) : Assembly Fragment := do
  let place ← emit instruction
  return ⟨place, place⟩

/-- Append a branch, of which the steps lead on already. -/
def emitBranch (steps : List ByteStep) : Assembly Nat := do
  modify fun d => { d with links := d.links + steps.length }
  emit (.branch steps)

/-- Let the instruction at a place go on at another; for a fork this is a further way. -/
def connect (place target : Nat) : Assembly Unit := do
  let isFork := match (← get).instructions[place]? with
    | some (.fork _) => true
    | _ => false
  modify fun d =>
    { d with instructions := d.instructions.modify place (Instruction.connect target),
             ways := if isFork then d.ways + 1 else d.ways }
  if isFork then check

/-- Append a fork without ways. -/
def emitFork : Assembly Nat := emit (.fork [])

/-- Append an instruction that does nothing. -/
def emitJump : Assembly Nat := emit (.jump 0)

/-- The slot for a key among so many. -/
def slotOf (slots : Nat) (key : List Nat) : Nat :=
  (key.foldl (fun h n => (h ^^^ UInt64.ofNat n) * 1099511628211) 14695981039346656037 %
    UInt64.ofNat slots).toNat

/-- Use the instruction built last for the same key, if its slot has not been taken by another key
since; otherwise build one. -/
def reuse (key : List Nat) (build : Assembly Nat) : Assembly Nat := do
  let slot := slotOf (← get).slots.size key
  match (← get).slots[slot]? with
  | some (some (k, place)) =>
    if k = key && (← get).classStart ≤ place then return place
  | _ => pure ()
  let place ← build
  modify fun d => { d with slots := d.slots.setIfInBounds slot (some (key, place)) }
  return place

/-- Begin a class, for which nothing is used again that was built before. -/
def beginClass : Assembly Unit := modify fun d => { d with classStart := d.instructions.size }

/-- A branch for a class of ASCII characters. -/
def asciiClass (s : CharSet) : Assembly Fragment := do
  let exit ← emitJump
  let entry ← emitBranch (s.ranges.map fun (a, b) => ⟨⟨a, b⟩, exit⟩)
  return ⟨entry, exit⟩

/-- A place in the tree of the boxes of a class: the steps of which the targets are built, in
reverse, and the bytes of the step whose target is being built. -/
structure OpenBranch where
  steps : List ByteStep
  pending : Option ByteRange

/-- Finish the pending step of a branch. -/
def OpenBranch.settle (b : OpenBranch) (next : Nat) : OpenBranch :=
  match b.pending with
  | some bytes => ⟨⟨bytes, next⟩ :: b.steps, none⟩
  | none => b

/-- Build a branch, or use one that has been built before for the same steps. -/
def OpenBranch.build (b : OpenBranch) : Assembly Nat :=
  let steps := b.steps.reverse
  reuse (steps.flatMap fun s => [s.bytes.first, s.bytes.last, s.next]) (emitBranch steps)

/-- Build nested branches, the innermost first; the innermost leads to the exit of the class. -/
def buildBranches (exit : Nat) : List OpenBranch → Assembly Nat
  | [] => return exit
  | b :: inner => do (b.settle (← buildBranches exit inner)).build

/-- Add a box to the nested branches that the last box has left open. -/
def addBox (exit : Nat) : List OpenBranch → List ByteRange → Assembly (List OpenBranch)
  | b :: inner, bytes :: rest => do
    if b.pending = some bytes then return b :: (← addBox exit inner rest)
    else
      let b := b.settle (← buildBranches exit inner)
      return { b with pending := some bytes } :: rest.map fun bytes => ⟨[], some bytes⟩
  | branches, _ => return branches

/-- A class read forwards: a tree over the boxes, of which equal parts are shared. -/
def forwardClass (s : CharSet) : Assembly Fragment := do
  beginClass
  let exit ← emitJump
  let branches ← s.boxes.foldlM (addBox exit) [⟨[], none⟩]
  return ⟨← buildBranches exit branches, exit⟩

/-- Add a box read backwards, of which the first byte is read last, and give its entry. -/
def addBoxBackward (exit : Nat) : List ByteRange → Assembly Nat
  | [] => return exit
  | bytes :: rest => do
    let place ← reuse [exit, bytes.first, bytes.last] (emit (.read ⟨bytes, exit⟩))
    addBoxBackward place rest

/-- A class read backwards: a fork over the boxes, which share their first bytes. -/
def backwardClass (s : CharSet) : Assembly Fragment := do
  beginClass
  let fork ← emitFork
  let exit ← emitJump
  s.boxes.forM fun box => do connect fork (← addBoxBackward exit box)
  return ⟨fork, exit⟩

def ofClass (backward : Bool) (s : CharSet) : Assembly Fragment :=
  if s.isAscii then asciiClass s else if backward then backwardClass s else forwardClass s

/-- Bytes to be read in a row. -/
def ofBytes : List Nat → Assembly Fragment
  | [] => single (.jump 0)
  | [b] => single (.read ⟨⟨b, b⟩, 0⟩)
  | b :: bytes => do
    let place ← emit (.read ⟨⟨b, b⟩, 0⟩)
    let rest ← ofBytes bytes
    connect place rest.entry
    return ⟨place, rest.exit⟩

/-- Append so many further copies of a fragment to a fragment. -/
def appendCopies (one : Assembly Fragment) (f : Fragment) : Nat → Assembly Fragment
  | 0 => return f
  | n + 1 => do
    let g ← one
    connect f.exit g.entry
    appendCopies one ⟨f.entry, g.exit⟩ n

/-- So many copies of a fragment in a row. -/
def exactly (one : Assembly Fragment) : Nat → Assembly Fragment
  | 0 => single (.jump 0)
  | n + 1 => do appendCopies one (← one) n

/-- Append at most so many copies to what ends at `last`; from each of them a way leads to the
exit. -/
def appendOptional (one : Assembly Fragment) (exit last : Nat) : Nat → Assembly Nat
  | 0 => return last
  | n + 1 => do
    let fork ← emitFork
    let f ← one
    connect last fork
    connect fork f.entry
    connect fork exit
    appendOptional one exit f.exit n

/-- Any number of copies, at least so many. `neverEmpty` says that a copy reads something. -/
def atLeast (one : Assembly Fragment) (neverEmpty : Bool) : Nat → Assembly Fragment
  | 0 => do
    if neverEmpty then
      let fork ← emitFork
      let f ← one
      connect fork f.entry
      connect f.exit fork
      return ⟨fork, fork⟩
    else
      let f ← one
      let again ← emitFork
      connect f.exit again
      connect again f.entry
      let fork ← emitFork
      let exit ← emitJump
      connect fork f.entry
      connect fork exit
      connect again exit
      return ⟨fork, exit⟩
  | 1 => do
    let f ← one
    let again ← emitFork
    connect f.exit again
    connect again f.entry
    return ⟨f.entry, again⟩
  | n + 2 => do
    let front ← exactly one (n + 1)
    let f ← one
    let again ← emitFork
    connect front.exit f.entry
    connect f.exit again
    connect again f.entry
    return ⟨front.entry, again⟩

/-- A choice between two fragments; the branches behind them are added later. -/
def choice (f g : Fragment) : Assembly Fragment := do
  let fork ← emitFork
  let exit ← emitJump
  connect fork f.entry
  connect f.exit exit
  connect fork g.entry
  connect g.exit exit
  return ⟨fork, exit⟩

/-- Copies of a fragment. `neverEmpty` says that a copy reads something. -/
def repeated (one : Assembly Fragment) (neverEmpty : Bool) (least : Nat) :
    Option Nat → Assembly Fragment
  | none => atLeast one neverEmpty least
  | some greatest => do
    if least = greatest then exactly one least
    else if least = 0 && greatest = 1 then
      let fork ← emitFork
      let f ← one
      let exit ← emitJump
      connect fork f.entry
      connect fork exit
      connect f.exit exit
      return ⟨fork, exit⟩
    else
      let front ← exactly one least
      let exit ← emitJump
      let last ← appendOptional one exit front.exit (greatest - least)
      connect last exit
      return ⟨front.entry, exit⟩

/-- A fragment between two jumps, which stand for the bounds of a group. -/
def bounded (one : Assembly Fragment) : Assembly Fragment := do
  let entry ← emitJump
  let f ← one
  let exit ← emitJump
  connect entry f.entry
  connect f.exit exit
  return ⟨entry, exit⟩

end Assembly

end EventQuery.Text
