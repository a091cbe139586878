import EventQuery.Text.Regex.Program

/-!
Trees over alternative texts. Alternatives that are all texts become one tree, in which those with a
common beginning share it as long as the order of preference allows: behind the end of a text a new
row of steps begins.
-/

namespace EventQuery.Text

/-- A row of the steps from a place of a tree. `stop` says that a text ends at the place; the steps
behind it belong to alternatives that come after that text. -/
inductive LiteralTree where
  | nil
  | way (byte : Nat) (child rest : LiteralTree)
  | stop (rest : LiteralTree)
  deriving Inhabited

namespace LiteralTree

/-- Whether no step leads on. -/
def isLeaf : LiteralTree → Bool
  | .nil => true
  | .way .. => false
  | .stop rest => isLeaf rest

/-- Whether a text ends at the place, or behind some of its steps. -/
def hasStop : LiteralTree → Bool
  | .nil => false
  | .way _ _ rest => hasStop rest
  | .stop _ => true

/-- Put a stop behind all steps. -/
def appendStop : LiteralTree → LiteralTree
  | .nil => .stop .nil
  | .way byte child rest => .way byte child (appendStop rest)
  | .stop rest => .stop (appendStop rest)

/-- Add a text to a tree. Its first byte joins the steps behind the last stop, in ascending
order. -/
def add : List Nat → LiteralTree → LiteralTree
  | [], t => if t.isLeaf && t.hasStop then t else t.appendStop
  | b :: bytes, .nil => .way b (add bytes .nil) .nil
  | b :: bytes, .stop rest => .stop (add (b :: bytes) rest)
  | b :: bytes, .way c child rest =>
    if rest.hasStop || c < b then .way c child (add (b :: bytes) rest)
    else if b = c then .way c (add bytes child) rest
    else .way b (add bytes .nil) (.way c child rest)
  termination_by bytes t => (bytes.length, sizeOf t)

/-- Build an instruction for steps in reverse, and put it in front of the ways. -/
def closeRow (steps : List ByteStep) (ways : List Nat) : Assembly (List Nat) := do
  match steps with
  | [] => return ways
  | [step] => return (← Assembly.emit (.read step)) :: ways
  | steps => return (← Assembly.emitBranch steps.reverse) :: ways

/-- Build a tree and give its entry. `steps` are those of the row at work, and `ways` lead to the
rows before it. -/
def build (exit : Nat) (steps : List ByteStep) (ways : List Nat) : LiteralTree → Assembly Nat
  | .nil => do
    let ways ← closeRow steps ways
    modify fun d => { d with ways := d.ways + ways.length }
    Assembly.emit (.fork ways)
  | .stop rest => do build exit [] (exit :: (← closeRow steps ways)) rest
  | .way byte child rest => do
    let next ← if child.isLeaf then pure exit else build exit [] [] child
    build exit (⟨⟨byte, byte⟩, next⟩ :: steps) ways rest

/-- The tree of some texts. -/
def ofTexts (texts : List (List Nat)) : LiteralTree := texts.foldl (fun t bytes => t.add bytes) .nil

end LiteralTree

end EventQuery.Text
