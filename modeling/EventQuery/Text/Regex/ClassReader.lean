import EventQuery.Text.Blank
import EventQuery.Text.Regex.Pattern

/-!
Reading escapes and bracketed classes. Readers take the characters ahead and give what they have
read with the rest, or nothing where the text is malformed. In the extended form white space and
comments carry no meaning, not even inside the braces of an escape.
-/

namespace EventQuery.Text.Pattern

/-- Drop white space and comments. `inComment` says that a comment is open; a line feed closes
it. -/
def dropSpace (inComment : Bool) : List Char → List Char
  | [] => []
  | c :: cs =>
    if inComment then dropSpace (c ≠ '\n') cs
    else if isBlank c then dropSpace false cs
    else if c = '#' then dropSpace true cs
    else c :: cs

/-- The characters ahead in the plain or in the extended form. -/
def ahead (extended : Bool) (cs : List Char) : List Char :=
  if extended then dropSpace false cs else cs

/-- The next character behind white space, to decide what a hyphen means. Of a comment only its mark
is passed over. -/
def peekAhead (extended : Bool) (cs : List Char) : Option Char :=
  if extended then
    let found :=
      match cs.dropWhile isBlank with
      | '#' :: comment => comment.dropWhile isBlank
      | found => found
    (found.head?).or cs.head?
  else cs.head?

/-- Read the characters before a closing brace. -/
def readBraces (extended inComment : Bool) : List Char → Option (List Char × List Char)
  | [] => none
  | c :: cs =>
    if inComment then readBraces extended (c ≠ '\n') cs
    else if extended && isBlank c then readBraces extended false cs
    else if extended && c = '#' then readBraces extended true cs
    else if c = '\x7d' then some ([], cs)
    else (readBraces extended false cs).map fun (body, rest) => (c :: body, rest)

/-- Read so many characters. -/
def readChars (extended : Bool) : Nat → List Char → Option (List Char × List Char)
  | 0, cs => some ([], cs)
  | n + 1, cs =>
    match ahead extended cs with
    | [] => none
    | c :: rest => (readChars extended n rest).map fun (body, rest) => (c :: body, rest)

/-- The value of a hexadecimal digit. -/
def hexDigit? (c : Char) : Option Nat :=
  if c.isDigit then some (c.toNat - '0'.toNat)
  else if 'a' ≤ c && c ≤ 'f' then some (c.toNat - 'a'.toNat + 10)
  else if 'A' ≤ c && c ≤ 'F' then some (c.toNat - 'A'.toNat + 10)
  else none

/-- The character of hexadecimal digits. -/
def charOfHex? (digits : List Char) : Option Char := do
  let values ← digits.mapM hexDigit?
  let n := values.foldl (fun n d => 16 * n + d) 0
  if values.isEmpty || !decide n.isValidChar then none else some (Char.ofNat n)

/-- Read a character code, behind the letter that announces it: digits in braces, or a fixed number
of digits. -/
def readCode (extended : Bool) (width : Nat) (cs : List Char) : Option (PatternChar × List Char) :=
  match ahead extended cs with
  | '\x7b' :: rest => do
    let (digits, rest) ← readBraces extended false rest
    let c ← charOfHex? digits
    some (⟨c, false⟩, rest)
  | cs => do
    let (digits, rest) ← readChars extended width cs
    let c ← charOfHex? digits
    some (⟨c, width = 2⟩, rest)

/-- What an escape stands for. -/
inductive Escape where
  | char (c : PatternChar)
  | anchor (test : Anchor)
  | property (query : PropertyQuery) (negated : Bool)
  | kind (kind : CharKind) (negated : Bool)

/-- The texts before and behind the first occurrence of a mark. -/
def cutAt? (mark : List Char) : List Char → Option (List Char × List Char)
  | [] => none
  | c :: cs =>
    if mark.isPrefixOf (c :: cs) then some ([], (c :: cs).drop mark.length)
    else (cutAt? mark cs).map fun (front, back) => (c :: front, back)

/-- The query in the braces of a property, and whether it is negated there. -/
def queryOf (body : List Char) : PropertyQuery × Bool :=
  let valued (parts : List Char × List Char) : PropertyQuery :=
    .valued (.ofList parts.1) (.ofList parts.2)
  match cutAt? ['!', '='] body with
  | some parts => (valued parts, true)
  | none =>
    match (cutAt? [':'] body).or (cutAt? ['='] body) with
    | some parts => (valued parts, false)
    | none => (.named (.ofList body), false)

/-- Read a property, behind its `p`: one letter, or a query in braces. -/
def readProperty (extended negated : Bool) (cs : List Char) : Option (Escape × List Char) :=
  match ahead extended cs with
  | [] | '\\' :: _ => none
  | '\x7b' :: rest =>
    (readBraces extended false rest).map fun (body, rest) =>
      let (query, inner) := queryOf body
      (.property query (negated != inner), rest)
  | c :: rest => some (.property (.named (.singleton c)) negated, rest)

/-- The letters and hyphens of the name of a word edge, up to its closing brace. -/
def readEdgeName (extended inComment : Bool) : List Char → Option (List Char × List Char)
  | [] => none
  | c :: cs =>
    if inComment then readEdgeName extended (c ≠ '\n') cs
    else if extended && isBlank c then readEdgeName extended false cs
    else if extended && c = '#' then readEdgeName extended true cs
    else if c = '\x7d' then some ([], cs)
    else if c.isAlpha || c = '-' then
      (readEdgeName extended false cs).map fun (body, rest) => (c :: body, rest)
    else none

/-- Read what follows `\b`: a kind of word edge may stand in braces. A brace that opens a count is
left alone. -/
def readEdge (extended : Bool) (cs : List Char) : Option (Escape × List Char) :=
  match cs with
  | '\x7b' :: rest =>
    match ahead extended rest with
    | [] => none
    | c :: _ =>
      if c.isAlpha || c = '-' then do
        let (name, rest) ← readEdgeName extended false rest
        let edge ← match String.ofList name with
          | "start" => some WordEdge.start
          | "end" => some .finish
          | "start-half" => some .startHalf
          | "end-half" => some .finishHalf
          | _ => none
        some (.anchor (.word edge), rest)
      else some (.anchor (.word .boundary), cs)
  | _ => some (.anchor (.word .boundary), cs)

/-- Read an escape, behind its backslash. ASCII characters other than letters, digits and angle
brackets stand for themselves. -/
def readEscape (extended : Bool) : List Char → Option (Escape × List Char)
  | [] => none
  | c :: rest =>
    let char (c : Char) : Option (Escape × List Char) := some (.char ⟨c, false⟩, rest)
    let code (width : Nat) : Option (Escape × List Char) :=
      (readCode extended width rest).map fun (c, rest) => (.char c, rest)
    match c with
    | 'x' => code 2
    | 'u' => code 4
    | 'U' => code 8
    | 'p' => readProperty extended false rest
    | 'P' => readProperty extended true rest
    | 'd' => some (.kind .digit false, rest)
    | 'D' => some (.kind .digit true, rest)
    | 's' => some (.kind .space false, rest)
    | 'S' => some (.kind .space true, rest)
    | 'w' => some (.kind .word false, rest)
    | 'W' => some (.kind .word true, rest)
    | 'a' => char '\x07'
    | 'f' => char '\x0c'
    | 't' => char '\t'
    | 'n' => char '\n'
    | 'r' => char '\r'
    | 'v' => char '\x0b'
    | 'A' => some (.anchor .textStart, rest)
    | 'z' => some (.anchor .textEnd, rest)
    | 'b' => readEdge extended rest
    | 'B' => some (.anchor (.word .inside), rest)
    | '<' => some (.anchor (.word .start), rest)
    | '>' => some (.anchor (.word .finish), rest)
    | c => if c.toNat < 128 && !c.isAlphanum then char c else none

/-- The names of the kinds of ASCII characters. -/
def asciiKind? : String → Option AsciiKind
  | "alnum" => some .alnum
  | "alpha" => some .alpha
  | "ascii" => some .ascii
  | "blank" => some .blank
  | "cntrl" => some .cntrl
  | "digit" => some .digit
  | "graph" => some .graph
  | "lower" => some .lower
  | "print" => some .print
  | "punct" => some .punct
  | "space" => some .space
  | "upper" => some .upper
  | "word" => some .word
  | "xdigit" => some .xdigit
  | _ => none

/-- Read a named class such as `[:alpha:]`, behind its first bracket; nothing where the text is
none. -/
def readAsciiClass : List Char → Option (ClassPattern × List Char)
  | ':' :: rest =>
    let (negated, rest) :=
      match rest with
      | '^' :: rest => (true, rest)
      | rest => (false, rest)
    match cutAt? [':'] rest with
    | some (name, ']' :: rest) =>
      (asciiKind? (.ofList name)).map fun kind => (.ascii kind negated, rest)
    | _ => none
  | _ => none

/-- Read a character or an escape inside brackets. -/
def readClassPrimitive (extended : Bool) : List Char → Option (Escape × List Char)
  | [] => none
  | '\\' :: rest => readEscape extended rest
  | c :: rest => some (.char ⟨c, false⟩, rest)

/-- Read a character, a range or an escaped class inside brackets. A hyphen before a closing bracket
or another hyphen makes no range. -/
def readClassItem (extended : Bool) (cs : List Char) : Option (ClassPattern × List Char) := do
  let (first, rest) ← readClassPrimitive extended cs
  let single : Option ClassPattern :=
    match first with
    | .char c => some (.char c)
    | .kind k negated => some (.kind k negated)
    | .property query negated => some (.property query negated)
    | .anchor _ => none
  match ahead extended rest with
  | [] => none
  | '-' :: behind =>
    if peekAhead extended behind = some ']' || peekAhead extended behind = some '-' then
      single.map (·, '-' :: behind)
    else
      let (last, rest) ← readClassPrimitive extended (ahead extended behind)
      match first, last with
      | .char a, .char b => if a.char ≤ b.char then some (.range a b, rest) else none
      | _, _ => none
  | rest => single.map (·, rest)

/-- What encloses the part of a class that is being read: a bracket with the items before it, or an
operation with its left side. -/
inductive ClassFrame where
  | bracket (negated : Bool) (before : List ClassPattern)
  | operand (op : ClassOperation) (left : ClassPattern)

/-- The class read so far: what encloses it, its items in reverse, and whether its bracket has only
just been opened. -/
structure ClassState where
  frames : List ClassFrame
  items : List ClassPattern
  opening : Bool

namespace ClassState

/-- The items read, joined with the left side of a pending operation; and what encloses them. -/
def joined (s : ClassState) : ClassPattern × List ClassFrame :=
  let right := ClassPattern.ofItems s.items.reverse
  match s.frames with
  | .operand op left :: frames => (.operation op left right, frames)
  | frames => (right, frames)

def push (s : ClassState) (item : ClassPattern) : ClassState :=
  { s with items := item :: s.items, opening := false }

/-- Begin the right side of an operation. -/
def operate (s : ClassState) (op : ClassOperation) : ClassState :=
  ⟨.operand op s.joined.1 :: s.joined.2, [], false⟩

/-- Open a bracket; a caret behind it negates the class. -/
def openBracket (s : ClassState) (extended : Bool) (cs : List Char) : ClassState × List Char :=
  match ahead extended cs with
  | '^' :: rest => (⟨.bracket true s.items :: s.frames, [], true⟩, rest)
  | rest => (⟨.bracket false s.items :: s.frames, [], true⟩, rest)

end ClassState

/-- Read a bracketed class to its end. Directly behind the opening bracket hyphens stand for
themselves, and so does a closing bracket in first place. -/
def readClassFrom (extended : Bool) :
    Nat → ClassState → List Char → Option ((ClassPattern × Bool) × List Char)
  | 0, _, _ => none
  | fuel + 1, s, cs =>
    match ahead extended cs with
    | [] => none
    | c :: rest =>
      if s.opening && c = '-' then
        readClassFrom extended fuel { s with items := .char ⟨'-', false⟩ :: s.items } rest
      else if s.opening && c = ']' && s.items.isEmpty then
        readClassFrom extended fuel (s.push (.char ⟨']', false⟩)) rest
      else
        match c, rest with
        | '[', rest =>
          match readAsciiClass rest with
          | some (cls, rest) => readClassFrom extended fuel (s.push cls) rest
          | none =>
            let (s, rest) := s.openBracket extended rest
            readClassFrom extended fuel s rest
        | ']', rest =>
          match s.joined with
          | (inner, [.bracket negated _]) => some ((inner, negated), rest)
          | (inner, .bracket negated before :: frames) =>
            readClassFrom extended fuel ⟨frames, .bracketed inner negated :: before, false⟩ rest
          | _ => none
        | '&', '&' :: rest => readClassFrom extended fuel (s.operate .intersection) rest
        | '-', '-' :: rest => readClassFrom extended fuel (s.operate .difference) rest
        | '~', '~' :: rest => readClassFrom extended fuel (s.operate .symmetricDifference) rest
        | c, rest =>
          match readClassItem extended (c :: rest) with
          | some (item, rest) => readClassFrom extended fuel (s.push item) rest
          | none => none

/-- Read a bracketed class, behind its opening bracket: its contents and whether they are
negated. -/
def readClass (extended : Bool) (cs : List Char) : Option ((ClassPattern × Bool) × List Char) :=
  let (s, rest) := ClassState.openBracket ⟨[], [], false⟩ extended cs
  readClassFrom extended (rest.length + 1) s rest

end EventQuery.Text.Pattern
