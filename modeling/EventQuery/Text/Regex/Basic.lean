import EventQuery.Text.Regex.Pattern

/-!
Regular expressions in a normal form: adjacent texts are joined, alternatives of single characters
are one class, and a beginning that all alternatives share stands in front of them. The functions
that build expressions keep the form.
-/

namespace EventQuery.Text

/-- What a test asks of a position, between the character before it and the character behind it. -/
inductive Look where
  | textStart
  | textEnd
  | lineStart (carriageReturns : Bool)
  | lineEnd (carriageReturns : Bool)
  | word (edge : WordEdge) (unicode : Bool)
  deriving DecidableEq, Repr

/-- Whether a test holds between two characters, of which either may be missing at an end of the
text. -/
def Look.holds (previous next : Option Char) : Look → Bool
  | .textStart => previous.isNone
  | .textEnd => next.isNone
  | .lineStart false => previous.isNone || previous = some '\n'
  | .lineStart true =>
    previous.isNone || previous = some '\n' || (previous = some '\r' && next ≠ some '\n')
  | .lineEnd false => next.isNone || next = some '\n'
  | .lineEnd true => next.isNone || next = some '\r' || (next = some '\n' && previous ≠ some '\r')
  | .word edge unicode =>
    let isWord (c : Option Char) : Bool :=
      c.any fun c => if unicode then Property.wordChars.contains c else c.isAlphanum || c = '_'
    match edge with
    | .boundary => isWord previous != isWord next
    | .inside => isWord previous == isWord next
    | .start => !isWord previous && isWord next
    | .finish => isWord previous && !isWord next
    | .startHalf => !isWord previous
    | .finishHalf => !isWord next

/-- A regular expression. `bytewise` says that a class was written where Unicode is switched off. -/
inductive Regex where
  | empty
  | literal (text : List Char)
  | cls (set : CharSet) (bytewise : Bool)
  | look (test : Look)
  | repeated (inner : Regex) (least : Nat) (greatest : Option Nat) (greedy : Bool)
  | capture (index : Nat) (inner : Regex)
  | sequence (parts : List Regex)
  | alternation (branches : List Regex)
  deriving Inhabited

namespace Regex

mutual

/-- Whether two expressions are the same. -/
def same : Regex → Regex → Bool
  | .empty, .empty => true
  | .literal s, .literal t => s = t
  | .cls s b, .cls t c => s = t && b = c
  | .look s, .look t => s = t
  | .repeated r a b g, .repeated s c d h => a = c && b = d && g = h && same r s
  | .capture i r, .capture j s => i = j && same r s
  | .sequence rs, .sequence ss => sameAll rs ss
  | .alternation rs, .alternation ss => sameAll rs ss
  | _, _ => false

def sameAll : List Regex → List Regex → Bool
  | [], [] => true
  | r :: rs, s :: ss => same r s && sameAll rs ss
  | _, _ => false

end

mutual

/-- Whether an expression can only match the empty text. -/
def isEmptyOnly : Regex → Bool
  | .empty | .look _ => true
  | .literal text => text.isEmpty
  | .cls .. => false
  | .repeated inner _ greatest _ => greatest.isSome && isEmptyOnly inner
  | .capture _ inner => isEmptyOnly inner
  | .sequence parts => areEmptyOnly parts
  | .alternation branches => areEmptyOnly branches

def areEmptyOnly : List Regex → Bool
  | [] => true
  | r :: rs => isEmptyOnly r && areEmptyOnly rs

end

mutual

/-- The length of the shortest match; none where nothing is known to match. -/
def leastLength? : Regex → Option Nat
  | .empty | .look _ => some 0
  | .literal text => some text.length
  | .cls set _ => if set.ranges.isEmpty then none else some 1
  | .repeated inner least _ _ => (leastLength? inner).map (· * least)
  | .capture _ inner => leastLength? inner
  | .sequence parts => sumLength? parts
  | .alternation branches => minLength? branches

def sumLength? : List Regex → Option Nat
  | [] => some 0
  | r :: rs =>
    match leastLength? r, sumLength? rs with
    | some n, some m => some (n + m)
    | _, _ => none

def minLength? : List Regex → Option Nat
  | [] => none
  | [r] => leastLength? r
  | r :: rs =>
    match leastLength? r, minLength? rs with
    | some n, some m => some (min n m)
    | _, _ => none

end

/-- Whether each match is longer than the empty text. -/
def neverEmpty (r : Regex) : Bool := r.leastLength?.any (0 < ·)

mutual

/-- Whether each match begins with the given test. -/
def beginsWith (test : Look) : Regex → Bool
  | .look t => t = test
  | .repeated inner least _ _ => 0 < least && beginsWith test inner
  | .capture _ inner => beginsWith test inner
  | .sequence parts => firstBeginsWith test parts
  | .alternation branches => allBeginWith test branches
  | _ => false

def firstBeginsWith (test : Look) : List Regex → Bool
  | [] => false
  | r :: rs => beginsWith test r || (isEmptyOnly r && firstBeginsWith test rs)

def allBeginWith (test : Look) : List Regex → Bool
  | [] => true
  | r :: rs => beginsWith test r && allBeginWith test rs

end

mutual

/-- Whether each match ends with the given test. -/
def endsWith (test : Look) : Regex → Bool
  | .look t => t = test
  | .repeated inner least _ _ => 0 < least && endsWith test inner
  | .capture _ inner => endsWith test inner
  | .sequence parts => lastEndsWith test parts
  | .alternation branches => allEndWith test branches
  | _ => false

def lastEndsWith (test : Look) : List Regex → Bool
  | [] => false
  | r :: rs => lastEndsWith test rs || (areEmptyOnly rs && endsWith test r)

def allEndWith (test : Look) : List Regex → Bool
  | [] => true
  | r :: rs => endsWith test r && allEndWith test rs

end

/-- The expression that matches nothing. -/
def never : Regex := .cls .empty true

/-- The expression of a class; a class of one character is a text. -/
def ofClass (set : CharSet) (bytewise : Bool) : Regex :=
  if set.ranges.isEmpty then never
  else
    match set.only? with
    | some c => .literal [c]
    | none => .cls set bytewise

/-- Copies of an expression. Of an expression that can only match the empty text one copy is as good
as many. -/
def copies (inner : Regex) (least : Nat) (greatest : Option Nat) (greedy : Bool) : Regex :=
  let (least, greatest) :=
    if inner.isEmptyOnly then (min least 1, some ((greatest.map (min · 1)).getD 1))
    else (least, greatest)
  if least = 0 && greatest = some 0 then .empty
  else if least = 1 && greatest = some 1 then inner
  else .repeated inner least greatest greedy

/-- Put a part in front of parts in normal form. -/
def prepend (part : Regex) (parts : List Regex) : List Regex :=
  match part, parts with
  | .empty, parts => parts
  | .literal s, .literal t :: rest => .literal (s ++ t) :: rest
  | part, parts => part :: parts

/-- The parts of an expression in a row. -/
def parts : Regex → List Regex
  | .sequence parts => parts
  | r => [r]

/-- Expressions in a row. -/
def inRow (rs : List Regex) : Regex :=
  match (rs.flatMap parts).foldr prepend [] with
  | [] => .empty
  | [r] => r
  | rs => .sequence rs

/-- The alternatives of an expression. -/
def branches : Regex → List Regex
  | .alternation branches => branches
  | r => [r]

/-- The character of a text of one character. -/
def singleChar? : Regex → Option Char
  | .literal [c] => some c
  | _ => none

/-- The characters of a class. -/
def classSet? : Regex → Option CharSet
  | .cls set _ => some set
  | _ => none

/-- The number of parts at the beginning that two lists share. -/
def sharedLength : List Regex → List Regex → Nat
  | r :: rs, s :: ss => if same r s then sharedLength rs ss + 1 else 0
  | _, _ => 0

/-- The number of parts with which all sequences begin; 0 where some expression is no sequence. -/
def sharedPrefix : List Regex → Nat
  | .sequence first :: rest =>
    rest.foldl (fun n r =>
      match r with
      | .sequence parts => min n (sharedLength first parts)
      | _ => 0) first.length
  | _ => 0

/-- The first of alternatives that apply. Single characters and classes make one class; otherwise
what all alternatives begin with is put in front of the rest, of which the same holds. Each step of
`fuel` takes a part off each of them. -/
def oneOfWithin (fuel : Nat) (rs : List Regex) : Regex :=
  match rs.flatMap branches with
  | [] => never
  | [r] => r
  | first :: rest =>
    let rs := first :: rest
    match rs.mapM singleChar?, rs.mapM classSet?, sharedPrefix rs, fuel with
    | some chars, _, _, _ => ofClass (.ofCodes (chars.map Char.toNat)) false
    | none, some sets, _, _ => ofClass (.unionAll sets) false
    | none, none, n + 1, fuel + 1 =>
      inRow (first.parts.take (n + 1) ++
        [oneOfWithin fuel (rs.map fun r => inRow (r.parts.drop (n + 1)))])
    | none, none, _, _ => .alternation rs

/-- The number of parts of expressions. -/
def partCount (rs : List Regex) : Nat := rs.foldl (fun n r => n + r.parts.length) 0

/-- The first of alternatives that apply. -/
def oneOf (rs : List Regex) : Regex := oneOfWithin (partCount (rs.flatMap branches)) rs

end Regex

end EventQuery.Text
