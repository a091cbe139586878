import EventQuery.Text.Regex.ClassReader

/-!
Reading patterns: groups with flags and names, alternatives, repetitions, anchors and classes.
References to groups and tests of the text around a match are malformed, and so is a pattern with
too deeply nested parts.
-/

namespace EventQuery.Text.Pattern

/-- The flag of a letter. -/
def flag? : Char → Option PatternFlag
  | 'i' => some .ignoreCase
  | 'm' => some .multiLine
  | 's' => some .dotAll
  | 'U' => some .swapGreed
  | 'u' => some .unicode
  | 'R' => some .carriageReturns
  | 'x' => some .extended
  | _ => none

/-- Read flags up to a colon or a closing parenthesis, which is left in front of the rest. A hyphen,
of which there is at most one and with a flag behind it, switches the flags behind it off; no flag
is named twice. -/
def readFlags (on dangling : Bool) (seen : FlagSettings) :
    List Char → Option (FlagSettings × List Char)
  | [] => none
  | c :: rest =>
    if c = ':' || c = ')' then (if dangling then none else some (seen.reverse, c :: rest))
    else if c = '-' then (if on then readFlags false true seen rest else none)
    else
      match flag? c with
      | none => none
      | some flag =>
        if seen.any fun entry => entry.1 = flag then none
        else readFlags on false ((flag, on) :: seen) rest

/-- Read the name of a group up to its closing bracket. -/
def readGroupName (cs : List Char) : Option (List Char × List Char) :=
  let isFirst (c : Char) : Bool := c = '_' || Property.alphabetic.contains c
  let isLater (c : Char) : Bool :=
    isFirst c || c = '.' || c = '[' || c = ']' || Property.numbers.contains c
  match cutAt? ['>'] cs with
  | some (c :: later, rest) =>
    if isFirst c && later.all isLater then some (c :: later, rest) else none
  | _ => none

/-- What the opening of a group says. -/
inductive GroupOpening where
  | capture (name : Option (List Char))
  | plain (settings : FlagSettings)
  | settings (flags : FlagSettings)

/-- Read the opening of a group, behind its parenthesis. -/
def readGroupOpening (extended : Bool) (cs : List Char) : Option (GroupOpening × List Char) :=
  match ahead extended cs with
  | '?' :: '=' :: _ | '?' :: '!' :: _ | '?' :: '<' :: '=' :: _ | '?' :: '<' :: '!' :: _ => none
  | '?' :: 'P' :: '<' :: rest | '?' :: '<' :: rest =>
    (readGroupName rest).map fun (name, rest) => (.capture (some name), rest)
  | '?' :: rest =>
    match readFlags true false [] rest with
    | some (flags, ':' :: rest) => some (.plain flags, rest)
    | some (flags, _ :: rest) => if flags.isEmpty then none else some (.settings flags, rest)
    | _ => none
  | rest => some (.capture none, rest)

/-- Read decimal digits. -/
def readDigits (extended inComment : Bool) : List Char → List Char × List Char
  | [] => ([], [])
  | c :: cs =>
    if inComment then readDigits extended (c ≠ '\n') cs
    else if extended && isBlank c then readDigits extended false cs
    else if extended && c = '#' then readDigits extended true cs
    else if c.isDigit then
      let (digits, rest) := readDigits extended false cs
      (c :: digits, rest)
    else ([], c :: cs)

/-- Read a decimal number of 32 bits with white space around it. -/
def readCount (extended : Bool) (cs : List Char) : Option (Nat × List Char) :=
  let (digits, rest) := readDigits extended false (trimStart cs)
  let n := digits.foldl (fun n c => 10 * n + (c.toNat - '0'.toNat)) 0
  if digits.isEmpty || 4294967295 < n then none else some (n, trimStart rest)

/-- Read the counts of a repetition, behind the opening brace. -/
def readCounts (extended : Bool) (cs : List Char) : Option ((Nat × Option Nat) × List Char) := do
  let (least, rest) ← readCount extended (ahead extended cs)
  match rest with
  | '\x7d' :: rest => some ((least, some least), rest)
  | ',' :: rest =>
    match ahead extended rest with
    | '\x7d' :: rest => some ((least, none), rest)
    | rest =>
      match ← readCount extended rest with
      | (greatest, '\x7d' :: rest) =>
        if least ≤ greatest then some ((least, some greatest), rest) else none
      | _ => none
  | _ => none

/-- An open group: its kind, the alternatives and the parts in front of it in reverse, and whether
the extended form was in use there. -/
structure OpenGroup where
  kind : GroupKind
  branches : List Pattern
  parts : List Pattern
  extended : Bool

/-- What has been read of a pattern: the open groups, and of the innermost one the finished
alternatives and the parts of the current one, in reverse; the number of capturing groups and the
names among them. -/
structure ReaderState where
  groups : List OpenGroup
  branches : List Pattern
  parts : List Pattern
  extended : Bool
  captures : Nat
  names : List (List Char)

namespace ReaderState

def initial : ReaderState := ⟨[], [], [], false, 0, []⟩

def push (s : ReaderState) (part : Pattern) : ReaderState := { s with parts := part :: s.parts }

/-- The alternatives of the innermost group. -/
def inner (s : ReaderState) : Pattern :=
  .ofBranches (.ofParts s.parts.reverse :: s.branches).reverse

def nextBranch (s : ReaderState) : ReaderState :=
  { s with branches := .ofParts s.parts.reverse :: s.branches, parts := [] }

/-- Repeat the last part; there must be one, and it must match something or hold a test. -/
def repeatLast (s : ReaderState) (least : Nat) (greatest : Option Nat) (greedy : Bool) :
    Option ReaderState :=
  match s.parts with
  | [] | .empty :: _ | .settings _ :: _ => none
  | part :: parts => some { s with parts := .repeated part least greatest greedy :: parts }

def openGroup (s : ReaderState) (kind : GroupKind) (extended : Bool) : ReaderState :=
  { s with
    groups := ⟨kind, s.branches, s.parts, s.extended⟩ :: s.groups, branches := [], parts := [],
    extended := extended }

/-- Take up what the opening of a group says. -/
def opening (s : ReaderState) : GroupOpening → Option ReaderState
  | .capture name =>
    if name.any s.names.contains then none
    else
      let s := { s with captures := s.captures + 1, names := name.toList ++ s.names }
      some (s.openGroup (.capture s.captures) s.extended)
  | .plain flags => some (s.openGroup (.plain flags) ((flags.lookup .extended).getD s.extended))
  | .settings flags =>
    some { s.push (.settings flags) with extended := (flags.lookup .extended).getD s.extended }

def closeGroup (s : ReaderState) : Option ReaderState :=
  match s.groups with
  | [] => none
  | g :: groups =>
    some { s with
      groups := groups, branches := g.branches, parts := .group g.kind s.inner :: g.parts,
      extended := g.extended }

end ReaderState

/-- A question mark behind a repetition says that few copies are preferred. -/
def readGreed (cs : List Char) : Bool × List Char :=
  match cs with
  | '?' :: rest => (false, rest)
  | _ => (true, cs)

/-- The pattern of an escape. -/
def ofEscape : Escape → Pattern
  | .char c => .char c
  | .anchor test => .anchor test
  | .property query negated => .property query negated
  | .kind k negated => .kind k negated

/-- Read one part of a pattern, or a mark between its parts, of which `c` is the first character. -/
def readPart (s : ReaderState) (c : Char) (rest : List Char) : Option (ReaderState × List Char) :=
  let uncounted (least : Nat) (greatest : Option Nat) : Option (ReaderState × List Char) :=
    let (greedy, rest) := readGreed rest
    (s.repeatLast least greatest greedy).map (·, rest)
  match c with
  | '(' => do
    let (opened, rest) ← readGroupOpening s.extended rest
    let s ← s.opening opened
    some (s, rest)
  | ')' => s.closeGroup.map (·, rest)
  | '|' => some (s.nextBranch, rest)
  | '[' => do
    let ((inner, negated), rest) ← readClass s.extended rest
    some (s.push (.bracketed inner negated), rest)
  | '?' => uncounted 0 (some 1)
  | '*' => uncounted 0 none
  | '+' => uncounted 1 none
  | '\x7b' => do
    let ((least, greatest), rest) ← readCounts s.extended rest
    let (greedy, rest) := readGreed (ahead s.extended rest)
    let s ← s.repeatLast least greatest greedy
    some (s, rest)
  | '\\' => do
    let (escape, rest) ← readEscape s.extended rest
    some (s.push (ofEscape escape), rest)
  | '.' => some (s.push .dot, rest)
  | '^' => some (s.push (.anchor .lineStart), rest)
  | '$' => some (s.push (.anchor .lineEnd), rest)
  | c => some (s.push (.char ⟨c, false⟩), rest)

/-- Read parts to the end of the text. Each takes at least one character. -/
def readParts : Nat → ReaderState → List Char → Option ReaderState
  | 0, _, _ => none
  | fuel + 1, s, cs =>
    match ahead s.extended cs with
    | [] => some s
    | c :: rest =>
      match readPart s c rest with
      | some (s, rest) => readParts fuel s rest
      | none => none

/-- The greatest number of composed parts that may be nested in each other. -/
def nestingLimit : Nat := 250

/-- The pattern that a text denotes. -/
def parse? (text : String) : Option Pattern :=
  match readParts (text.toList.length + 1) .initial text.toList with
  | some s => if s.groups.isEmpty && s.inner.nestsWithin nestingLimit then some s.inner else none
  | none => none

end EventQuery.Text.Pattern
