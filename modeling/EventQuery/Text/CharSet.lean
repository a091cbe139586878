/-!
Sets of characters. A set is kept as ascending ranges of code points with gaps between them, so two
sets with the same characters are equal. Surrogates are no characters: the ranges step over them.
-/

namespace EventQuery.Text

/-- A set of characters: the first and last code points of its ranges, in ascending order. -/
structure CharSet where
  ranges : List (Nat × Nat)
  deriving DecidableEq, Repr, Inhabited

namespace CharSet

/-- The greatest code point. -/
def lastCode : Nat := 0x10FFFF

/-- The code point behind one, past the surrogates. -/
def codeAfter (n : Nat) : Nat := if n = 0xD7FF then 0xE000 else n + 1

/-- The code point before one, past the surrogates. -/
def codeBefore (n : Nat) : Nat := if n = 0xE000 then 0xD7FF else n - 1

/-- Join a range with those that follow it and touch it; the ranges come in the order of their first
code points. -/
def joinFrom (first last : Nat) : List (Nat × Nat) → List (Nat × Nat)
  | [] => [(first, last)]
  | (a, b) :: rest =>
    if a ≤ codeAfter last then joinFrom first (max last b) rest
    else (first, last) :: joinFrom a b rest

/-- The ranges between the given ones, from a code point on. -/
def gapsFrom (start : Nat) : List (Nat × Nat) → List (Nat × Nat)
  | [] => if start ≤ lastCode then [(start, lastCode)] else []
  | (a, b) :: rest =>
    if start < a then (start, codeBefore a) :: gapsFrom (codeAfter b) rest
    else gapsFrom (codeAfter b) rest

/-- The set of the characters in some of the given ranges, which may overlap and come in any
order. -/
def ofRanges (ranges : List (Nat × Nat)) : CharSet :=
  match ranges.mergeSort fun r s => r.1 < s.1 || (r.1 = s.1 && r.2 ≤ s.2) with
  | [] => ⟨[]⟩
  | (a, b) :: rest => ⟨joinFrom a b rest⟩

def empty : CharSet := ⟨[]⟩

/-- The characters from one code point to another. -/
def between (first last : Nat) : CharSet := ⟨[(first, last)]⟩

/-- The set of the given code points. -/
def ofCodes (codes : List Nat) : CharSet := ofRanges (codes.map fun n => (n, n))

/-- The set of one character. -/
def single (c : Char) : CharSet := between c.toNat c.toNat

/-- All characters. -/
def all : CharSet := between 0 lastCode

/-- The ASCII characters. -/
def ascii : CharSet := between 0 127

def containsCode (s : CharSet) (n : Nat) : Bool := s.ranges.any fun (a, b) => a ≤ n && n ≤ b

def contains (s : CharSet) (c : Char) : Bool := s.containsCode c.toNat

def union (s t : CharSet) : CharSet := ofRanges (s.ranges ++ t.ranges)

/-- The characters in some of the given sets. -/
def unionAll (sets : List CharSet) : CharSet := ofRanges (sets.flatMap ranges)

def complement (s : CharSet) : CharSet := ⟨gapsFrom 0 s.ranges⟩

def inter (s t : CharSet) : CharSet := (s.complement.union t.complement).complement

def diff (s t : CharSet) : CharSet := (s.complement.union t).complement

/-- The characters in exactly one of two sets. -/
def symmDiff (s t : CharSet) : CharSet := (s.union t).diff (s.inter t)

/-- Whether all characters are ASCII. -/
def isAscii (s : CharSet) : Bool := s.ranges.all fun (_, b) => b ≤ 127

/-- The only character of a set. -/
def only? (s : CharSet) : Option Char :=
  match s.ranges with
  | [(a, b)] => if a = b then some (Char.ofNat a) else none
  | _ => none

/-- The value of a number in base 36. -/
def base36 (digits : String) : Nat :=
  digits.toList.foldl
    (fun n c => 36 * n + if c.isDigit then c.toNat - '0'.toNat else c.toNat - 'a'.toNat + 10) 0

/-- The numbers that a word of a table stands for: one number, or with `*` so many copies of a
number. -/
def tableNumbers (word : String) : List Nat :=
  match word.splitOn "*" with
  | [digits, count] => List.replicate (base36 count) (base36 digits)
  | _ => [base36 word]

/-- Ranges from the numbers of a table: in turn the length of a gap and the length of the range
behind it. -/
def rangesFrom (start : Nat) : List Nat → List (Nat × Nat)
  | gap :: length :: rest =>
    (start + gap, start + gap + length - 1) :: rangesFrom (start + gap + length) rest
  | _ => []

/-- The set that the lines of a table describe: in turn the length of a gap and of a range, in base
36. -/
def ofTable (lines : List String) : CharSet :=
  ⟨rangesFrom 0 (lines.flatMap fun line => (line.splitOn " ").flatMap tableNumbers)⟩

end CharSet

end EventQuery.Text
