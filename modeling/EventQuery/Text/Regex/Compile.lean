import EventQuery.Text.Regex.LiteralTree
import EventQuery.Text.Regex.Meaning
import EventQuery.Text.Regex.Reader

/-!
The program of a regular expression. A pattern is good where its program fits into the memory in
both directions, though only the one that reads forwards is kept.
-/

namespace EventQuery.Text

/-- A program: its instructions and the place where it begins. -/
structure Program where
  instructions : Array Instruction
  start : Nat
  memory : Nat
  deriving Inhabited

namespace Regex

/-- The bytes of a text in the order in which they are read. -/
def bytesInOrder (backward : Bool) (text : List Char) : List Nat :=
  let bytes := text.flatMap bytesOf
  if backward then bytes.reverse else bytes

/-- The text of an expression that is one. -/
def literal? : Regex → Option (List Char)
  | .literal text => some text
  | _ => none

mutual

/-- Build an expression. Groups are marked only where the text is read forwards. -/
def assemble (backward : Bool) : Regex → Assembly Fragment
  | .empty => Assembly.single (.jump 0)
  | .literal text => Assembly.ofBytes (bytesInOrder backward text)
  | .cls set _ => Assembly.ofClass backward set
  | .look test => Assembly.single (.look test 0)
  | .repeated inner least greatest _ =>
    Assembly.repeated (assemble backward inner) inner.neverEmpty least greatest
  | .capture _ inner =>
    if backward then assemble backward inner else Assembly.bounded (assemble backward inner)
  | .sequence parts => do
    match ← (if backward then assembleBackward parts else assembleForward none parts) with
    | some f => return f
    | none => Assembly.single (.jump 0)
  | .alternation branches => do
    match branches.mapM literal? with
    | some texts =>
      let exit ← Assembly.emitJump
      let entry ← (LiteralTree.ofTexts (texts.map (bytesInOrder backward))).build exit [] []
      return ⟨entry, exit⟩
    | none => assembleBranches backward none none branches

/-- Build expressions in a row behind a fragment, from the first to the last. -/
def assembleForward (before : Option Fragment) : List Regex → Assembly (Option Fragment)
  | [] => return before
  | r :: rs => do
    let f ← assemble false r
    match before with
    | some b =>
      Assembly.connect b.exit f.entry
      assembleForward (some ⟨b.entry, f.exit⟩) rs
    | none => assembleForward (some f) rs

/-- Build expressions in a row from the last to the first. -/
def assembleBackward : List Regex → Assembly (Option Fragment)
  | [] => return none
  | r :: rs => do
    let before ← assembleBackward rs
    let f ← assemble true r
    match before with
    | some b =>
      Assembly.connect b.exit f.entry
      return some ⟨b.entry, f.exit⟩
    | none => return some f

/-- Build alternatives. `first` is the only one built so far, `choice` the choice between those
built so far. -/
def assembleBranches (backward : Bool) (first choice : Option Fragment) :
    List Regex → Assembly Fragment
  | [] =>
    match choice, first with
    | some c, _ => return c
    | none, some f => return f
    | none, none => Assembly.single .fail
  | r :: rs => do
    let f ← assemble backward r
    match choice, first with
    | some c, _ =>
      Assembly.connect c.entry f.entry
      Assembly.connect f.exit c.exit
      assembleBranches backward first choice rs
    | none, some g => assembleBranches backward first (some (← Assembly.choice g f)) rs
    | none, none => assembleBranches backward (some f) none rs

end

/-- Build a whole program. A search for an expression that is not bound to an end of the text first
skips any bytes. -/
def assembleProgram (backward : Bool) (r : Regex) : Assembly Nat := do
  let bound := if backward then r.endsWith .textEnd else r.beginsWith .textStart
  let front ←
    if bound then Assembly.single (.jump 0)
    else Assembly.atLeast (Assembly.asciiClass (.between 0 255)) true 0
  let whole := assemble backward r
  let f ← if backward then whole else Assembly.bounded whole
  let accept ← Assembly.emit .accept
  Assembly.connect f.exit accept
  Assembly.connect front.exit f.entry
  return f.entry

/-- The program that reads forwards, if the programs for both directions fit into the memory. -/
def program? (r : Regex) : Option Program := do
  let (start, d) ← (assembleProgram false r).run (.initial 10000)
  let _ ← (assembleProgram true r).run (.initial 1000)
  return ⟨d.instructions, start, d.memory⟩

/-- The program of the pattern that a text denotes. -/
def compile? (text : String) : Option Program := do
  let pattern ← Pattern.parse? text
  let (r, _) ← pattern.regex? .initial
  r.program?

end Regex

end EventQuery.Text
