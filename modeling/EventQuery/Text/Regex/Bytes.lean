import EventQuery.Text.CharSet

/-!
Characters as bytes in UTF-8. The characters of a range of code points are the sequences of bytes of
a few boxes: products of ranges of bytes.
-/

namespace EventQuery.Text

/-- A range of bytes. -/
structure ByteRange where
  first : Nat
  last : Nat
  deriving DecidableEq, Repr, Inhabited

namespace ByteRange

/-- The number of values of so many continuation bytes. -/
def span : Nat → Nat
  | 0 => 1
  | n + 1 => 64 * span n

/-- A continuation byte with six bits from one value to another. -/
def continuation (first last : Nat) : ByteRange := ⟨0x80 + first, 0x80 + last⟩

/-- Boxes for the numbers from `first` to `last`, with a leading digit made a byte by `lead` and
then `n` digits of six bits. Numbers with the leading digits between those of the two ends fill one
box. -/
def boxes (lead : Nat → Nat → ByteRange) (first last : Nat) : Nat → List (List ByteRange)
  | 0 => [[lead first last]]
  | n + 1 =>
    let top := span (n + 1) - 1
    let a := first / span (n + 1)
    let b := last / span (n + 1)
    let under (digit first last : Nat) : List (List ByteRange) :=
      (boxes continuation first last n).map (lead digit digit :: ·)
    if a = b then under a (first % span (n + 1)) (last % span (n + 1))
    else
      let partFirst := first % span (n + 1) ≠ 0
      let partLast := last % span (n + 1) ≠ top
      let c := if partFirst then a + 1 else a
      let d := if partLast then b - 1 else b
      (if partFirst then under a (first % span (n + 1)) top else []) ++
        (if c ≤ d then [lead c d :: List.replicate (n + 1) (continuation 0 63)] else []) ++
        (if partLast then under b 0 (last % span (n + 1)) else [])

/-- The code points of characters with so many continuation bytes, with the mark of their first
byte. -/
def forms : List (Nat × Nat × Nat × Nat) :=
  [(0, 0x7F, 0, 0), (0x80, 0x7FF, 1, 0xC0), (0x800, 0xD7FF, 2, 0xE0), (0xE000, 0xFFFF, 2, 0xE0),
   (0x10000, 0x10FFFF, 3, 0xF0)]

/-- The boxes of the characters of a range of code points, in ascending order. -/
def ofCodes (first last : Nat) : List (List ByteRange) :=
  forms.flatMap fun (low, high, n, mark) =>
    if max first low ≤ min last high then
      boxes (fun a b => ⟨mark + a, mark + b⟩) (max first low) (min last high) n
    else []

end ByteRange

namespace CharSet

/-- The boxes of the characters of a set, in ascending order. -/
def boxes (s : CharSet) : List (List ByteRange) :=
  s.ranges.flatMap fun (a, b) => ByteRange.ofCodes a b

end CharSet

/-- The bytes of a character. -/
def bytesOf (c : Char) : List Nat :=
  ((ByteRange.ofCodes c.toNat c.toNat).headD []).map ByteRange.first

end EventQuery.Text
