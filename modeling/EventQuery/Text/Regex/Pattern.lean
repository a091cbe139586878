import EventQuery.Text.Property.Find

/-!
Patterns: regular expressions in the shape in which they are written, before flags and classes are
given a meaning.
-/

namespace EventQuery.Text

/-- The switches that a pattern can set for its parts. -/
inductive PatternFlag where
  | ignoreCase
  | multiLine
  | dotAll
  | swapGreed
  | unicode
  | carriageReturns
  | extended
  deriving DecidableEq, Repr

/-- Flags in the order in which they are written, each switched on or off. -/
abbrev FlagSettings := List (PatternFlag × Bool)

/-- A character of a pattern. `byte` says that it is written as `\x` with two digits, which names a
byte where Unicode is switched off. -/
structure PatternChar where
  char : Char
  byte : Bool
  deriving DecidableEq, Repr

/-- The kinds of characters with an escape of their own. -/
inductive CharKind where
  | digit
  | space
  | word
  deriving DecidableEq, Repr

/-- The kinds of ASCII characters that can be named inside brackets. -/
inductive AsciiKind where
  | alnum
  | alpha
  | ascii
  | blank
  | cntrl
  | digit
  | graph
  | lower
  | print
  | punct
  | space
  | upper
  | word
  | xdigit
  deriving DecidableEq, Repr

/-- The operations between the parts of a bracketed class. -/
inductive ClassOperation where
  | intersection
  | difference
  | symmetricDifference
  deriving DecidableEq, Repr

/-- The contents of a bracketed class. -/
inductive ClassPattern where
  | char (c : PatternChar)
  | range (first last : PatternChar)
  | ascii (kind : AsciiKind) (negated : Bool)
  | property (query : PropertyQuery) (negated : Bool)
  | kind (kind : CharKind) (negated : Bool)
  | bracketed (inner : ClassPattern) (negated : Bool)
  | union (items : List ClassPattern)
  | operation (op : ClassOperation) (left right : ClassPattern)
  deriving Repr, Inhabited

/-- What a word boundary asks of the characters before and behind it. -/
inductive WordEdge where
  | boundary
  | inside
  | start
  | finish
  | startHalf
  | finishHalf
  deriving DecidableEq, Repr

/-- Tests of a position. -/
inductive Anchor where
  | lineStart
  | lineEnd
  | textStart
  | textEnd
  | word (edge : WordEdge)
  deriving DecidableEq, Repr

/-- What the parentheses of a group say. -/
inductive GroupKind where
  | capture (index : Nat)
  | plain (settings : FlagSettings)
  deriving DecidableEq, Repr

/-- A pattern. `settings` stands where flags are set for the rest of the enclosing group. -/
inductive Pattern where
  | empty
  | settings (flags : FlagSettings)
  | char (c : PatternChar)
  | dot
  | anchor (test : Anchor)
  | property (query : PropertyQuery) (negated : Bool)
  | kind (kind : CharKind) (negated : Bool)
  | bracketed (inner : ClassPattern) (negated : Bool)
  | repeated (inner : Pattern) (least : Nat) (greatest : Option Nat) (greedy : Bool)
  | group (kind : GroupKind) (inner : Pattern)
  | alternation (branches : List Pattern)
  | sequence (parts : List Pattern)
  deriving Repr, Inhabited

/-- Whether at most `n` classes and operations are nested in each other. -/
def ClassPattern.nestsWithin : Nat → ClassPattern → Bool
  | 0, .bracketed .. | 0, .union (_ :: _) | 0, .operation .. => false
  | n + 1, .bracketed inner _ => nestsWithin n inner
  | n + 1, .union items => items.all (nestsWithin n)
  | n + 1, .operation _ left right => nestsWithin n left && nestsWithin n right
  | _, _ => true

/-- The contents of a class with the given items. -/
def ClassPattern.ofItems : List ClassPattern → ClassPattern
  | [item] => item
  | items => .union items

namespace Pattern

/-- Whether at most `n` composed parts are nested in each other. -/
def nestsWithin : Nat → Pattern → Bool
  | 0, .bracketed .. | 0, .repeated .. | 0, .group .. | 0, .alternation _ | 0, .sequence _ => false
  | n + 1, .bracketed inner _ => inner.nestsWithin n
  | n + 1, .repeated inner .. => nestsWithin n inner
  | n + 1, .group _ inner => nestsWithin n inner
  | n + 1, .alternation branches => branches.all (nestsWithin n)
  | n + 1, .sequence parts => parts.all (nestsWithin n)
  | _, _ => true

/-- The pattern of parts in a row. -/
def ofParts : List Pattern → Pattern
  | [] => .empty
  | [part] => part
  | parts => .sequence parts

/-- The pattern of alternatives. -/
def ofBranches : List Pattern → Pattern
  | [branch] => branch
  | branches => .alternation branches

end Pattern

end EventQuery.Text
