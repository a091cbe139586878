import EventQuery.Number.Binary

/-!
Decimal text of floating point numbers: the fewest digits that read back to the same number, of
those the nearest to it, written positionally at any magnitude and without a fraction where there is
none.
-/

namespace EventQuery.Number

/-- Ten to a power. -/
def pow10 (n : Nat) : Nat := Nat.pow 10 n

/-- The decimal number `digits · 10 ^ exponent`. -/
structure Decimal where
  digits : Nat
  exponent : Int
  deriving DecidableEq, Repr

/-- A decimal as a ratio of two whole numbers. -/
def Decimal.ratio (d : Decimal) : Nat × Nat :=
  (d.digits * pow10 d.exponent.toNat, pow10 (-d.exponent).toNat)

/-- The magnitude of the format that a decimal reads as. -/
def Format.readDecimal (f : Format) (d : Decimal) : Nat :=
  let (num, den) := d.ratio
  f.nearest (num * pow2 f.unitShift) den

/-- The number of decimal digits of a whole number. -/
def digitCount (n : Nat) : Nat := (Nat.toDigits 10 n).length

/-- The exponent of the leading decimal digit of `num / den`, for a ratio above zero. -/
def leadingExponent (num den : Nat) : Int :=
  let guess : Int := digitCount num - digitCount den
  let scaledNum := num * pow10 (-guess).toNat
  let scaledDen := den * pow10 guess.toNat
  if scaledNum < scaledDen then guess - 1 else guess

/-- Of the two neighbours of `num / den` on the grid of multiples of `10 ^ exponent`, the nearer one
that reads back as `magnitude`. Two equally near ones give the greater. -/
def Format.readBackAt (f : Format) (magnitude num den : Nat) (exponent : Int) : Option Decimal :=
  let scaledNum := num * pow10 (-exponent).toNat
  let scaledDen := den * pow10 exponent.toNat
  let below : Decimal := ⟨scaledNum / scaledDen, exponent⟩
  let above : Decimal := ⟨below.digits + 1, exponent⟩
  let remainder := scaledNum % scaledDen
  let lowReads := f.readDecimal below = magnitude
  let highReads := f.readDecimal above = magnitude
  if lowReads ∧ (¬ highReads ∨ 2 * remainder < scaledDen) then some below
  else if highReads then some above
  else none

/-- The first grid, from the coarsest, that holds a decimal reading back as `magnitude`. -/
def Format.shortestFrom (f : Format) (magnitude num den : Nat) (exponent : Int) : Nat → Decimal
  | 0 => ⟨0, 0⟩
  | grids + 1 =>
    match f.readBackAt magnitude num den exponent with
    | some d => d
    | none => f.shortestFrom magnitude num den (exponent - 1) grids

/-- The shortest decimal that reads back as a finite magnitude above zero. Seventeen digits tell all
magnitudes of both formats apart. -/
def Format.shortest (f : Format) (magnitude : Nat) : Decimal :=
  let num := f.units magnitude
  let den := pow2 f.unitShift
  f.shortestFrom magnitude num den (leadingExponent num den) 18

/-- Drop the zeros that a whole number ends with, at most `fuel` of them. -/
def stripZeros : Nat → List Char → List Char
  | 0, cs => cs
  | fuel + 1, cs =>
    match cs.getLast? with
    | some '0' => stripZeros fuel cs.dropLast
    | _ => cs

/-- Positional text: zeros fill the places between the digits and the point. -/
def Decimal.text (d : Decimal) : String :=
  let digits := Nat.toDigits 10 d.digits
  if 0 ≤ d.exponent then String.ofList (digits ++ List.replicate d.exponent.toNat '0')
  else
    let places := (-d.exponent).toNat
    let padded := List.replicate (places + 1 - digits.length) '0' ++ digits
    let whole := padded.take (padded.length - places)
    let fraction := padded.drop (padded.length - places)
    let fraction := stripZeros fraction.length fraction
    if fraction.isEmpty then String.ofList whole else String.ofList (whole ++ '.' :: fraction)

/-- Text of a word of a format. -/
def Format.text (f : Format) (word : Nat) : String :=
  let sign := if f.signWeight ≤ word then "-" else ""
  match f.decode word with
  | .nan .. => "NaN"
  | .infinite _ => sign ++ "inf"
  | .finite _ units =>
    if units = 0 then sign ++ "0" else sign ++ (f.shortest (word % f.signWeight)).text

def Single.text (x : Single) : String := Format.single.text x.word.toNat

def Double.text (x : Double) : String := Format.double.text x.word.toNat

end EventQuery.Number
