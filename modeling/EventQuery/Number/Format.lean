/-!
Binary floating point formats. A finite number of a format is a whole number of *units*, the unit
being the smallest positive number of the format, so arithmetic on finite numbers is arithmetic on
whole numbers followed by one rounding. `Format.nearest` is that rounding: to the nearest number of
the format, a tie going to the neighbour whose last bit is zero.
-/

namespace EventQuery.Number

/-- Two to a power. -/
def pow2 (n : Nat) : Nat := Nat.pow 2 n

/-- The widths of the two fields of a binary format, the sign bit apart. -/
structure Format where
  fractionBits : Nat
  exponentBits : Nat
  deriving DecidableEq, Repr

/-- The 32-bit format. -/
def Format.single : Format := ⟨23, 8⟩

/-- The 64-bit format. -/
def Format.double : Format := ⟨52, 11⟩

/-- The unit of a format is two to the power of minus this. -/
def Format.unitShift (f : Format) : Nat := pow2 (f.exponentBits - 1) - 2 + f.fractionBits

/-- The weight of the sign bit. -/
def Format.signWeight (f : Format) : Nat := pow2 (f.fractionBits + f.exponentBits)

/-- The magnitude of an infinity: every exponent bit is set and no fraction bit is. -/
def Format.infinity (f : Format) : Nat := (pow2 f.exponentBits - 1) * pow2 f.fractionBits

/-- The first fraction bit, which marks a quiet not-a-number. -/
def Format.quietBit (f : Format) : Nat := pow2 (f.fractionBits - 1)

/-- The not-a-number that operations without a result give. -/
def Format.quietNaN (f : Format) : Nat := f.infinity + f.quietBit

/-- Join a sign and a magnitude to a word. -/
def Format.pack (f : Format) (negative : Bool) (magnitude : Nat) : Nat :=
  if negative then f.signWeight + magnitude else magnitude

/-- The number of units that a finite magnitude stands for. -/
def Format.units (f : Format) (magnitude : Nat) : Nat :=
  let field := magnitude / pow2 f.fractionBits
  let fraction := magnitude % pow2 f.fractionBits
  if field = 0 then fraction else (pow2 f.fractionBits + fraction) * pow2 (field - 1)

/-- What a word of a format denotes. -/
inductive Datum where
  | finite (negative : Bool) (units : Nat)
  | infinite (negative : Bool)
  | nan (negative : Bool) (payload : Nat)
  deriving DecidableEq, Repr

/-- Read a word. -/
def Format.decode (f : Format) (word : Nat) : Datum :=
  let negative := f.signWeight ≤ word
  let magnitude := word % f.signWeight
  if f.infinity < magnitude then .nan negative (magnitude - f.infinity)
  else if magnitude = f.infinity then .infinite negative
  else .finite negative (f.units magnitude)

/-- The whole number nearest to `num / den`; of two equally near ones the even one. -/
def roundHalfEven (num den : Nat) : Nat :=
  let quotient := num / den
  let remainder := num % den
  if den < 2 * remainder ∨ (2 * remainder = den ∧ quotient % 2 = 1) then quotient + 1 else quotient

/-- The magnitude of the number of the format that is nearest to `num / den` units. A number with
more bits than the format keeps loses its low bits, and one beyond the largest finite number becomes
infinite. -/
def Format.nearest (f : Format) (num den : Nat) : Nat :=
  let dropped := (num / den).log2 - f.fractionBits
  let kept := roundHalfEven num (den * pow2 dropped)
  min (dropped * pow2 f.fractionBits + kept) f.infinity

/-- A whole number with its sign. -/
def signed (negative : Bool) (n : Nat) : Int := if negative then -(n : Int) else n

/-- The word nearest to a whole number of units; `zeroSign` is the sign of a zero. -/
def Format.ofUnits (f : Format) (zeroSign : Bool) (units : Int) : Nat :=
  f.pack (if units = 0 then zeroSign else units < 0) (f.nearest units.natAbs 1)

/-- The word nearest to a whole number. -/
def Format.ofInt (f : Format) (i : Int) : Nat :=
  f.pack (i < 0) (f.nearest (i.natAbs * pow2 f.unitShift) 1)

/-- The sum. A zero sum is negative only where both operands are negative zeros. -/
def Format.add (f : Format) : Datum → Datum → Nat
  | .finite s m, .finite t n => f.ofUnits (s && t) (signed s m + signed t n)
  | .infinite s, .infinite t => if s = t then f.pack s f.infinity else f.quietNaN
  | .infinite s, .finite .. => f.pack s f.infinity
  | .finite .., .infinite t => f.pack t f.infinity
  | .nan .., _ => f.quietNaN
  | _, .nan .. => f.quietNaN

/-- Change the sign. -/
def Datum.negate : Datum → Datum
  | .finite s m => .finite (!s) m
  | .infinite s => .infinite (!s)
  | .nan s p => .nan (!s) p

/-- The product. -/
def Format.mul (f : Format) : Datum → Datum → Nat
  | .finite s m, .finite t n => f.pack (s != t) (f.nearest (m * n) (pow2 f.unitShift))
  | .infinite s, .infinite t => f.pack (s != t) f.infinity
  | .infinite s, .finite t n => if n = 0 then f.quietNaN else f.pack (s != t) f.infinity
  | .finite s m, .infinite t => if m = 0 then f.quietNaN else f.pack (s != t) f.infinity
  | .nan .., _ => f.quietNaN
  | _, .nan .. => f.quietNaN

/-- The quotient. A number other than zero divided by zero is infinite. -/
def Format.div (f : Format) : Datum → Datum → Nat
  | .finite s m, .finite t n =>
    if n ≠ 0 then f.pack (s != t) (f.nearest (m * pow2 f.unitShift) n)
    else if m = 0 then f.quietNaN
    else f.pack (s != t) f.infinity
  | .infinite s, .finite t _ => f.pack (s != t) f.infinity
  | .finite s _, .infinite t => f.pack (s != t) 0
  | .infinite _, .infinite _ => f.quietNaN
  | .nan .., _ => f.quietNaN
  | _, .nan .. => f.quietNaN

/-- The remainder of the division that truncates; it is exact and has the sign of the dividend. -/
def Format.rem (f : Format) : Datum → Datum → Nat
  | .finite s m, .finite _ n => if n = 0 then f.quietNaN else f.pack s (f.nearest (m % n) 1)
  | .finite s m, .infinite _ => f.pack s (f.nearest m 1)
  | _, _ => f.quietNaN

/-- The word of the format `g` nearest to a number of the format `f`. The payload of a not-a-number
keeps its leading bits and becomes quiet. -/
def Format.convert (f g : Format) : Datum → Nat
  | .finite s m => g.pack s (g.nearest (m * pow2 g.unitShift) (pow2 f.unitShift))
  | .infinite s => g.pack s g.infinity
  | .nan s p =>
    g.pack s
      (g.infinity + (g.quietBit + p * pow2 g.fractionBits / pow2 f.fractionBits % g.quietBit))

/-- The whole part, held within two bounds; not-a-number counts as zero. -/
def Format.truncateWithin (f : Format) (least greatest : Int) : Datum → Int
  | .finite s m => max least (min greatest (signed s (m / pow2 f.unitShift)))
  | .infinite s => if s then least else greatest
  | .nan .. => 0

/-- The place of a number in the order of its format: by class first, then by units. Not-a-numbers
lie outside the infinities, on the side of their sign, and among themselves by payload. -/
def Datum.rank : Datum → Int × Int
  | .nan true p => (-2, -p)
  | .infinite true => (-1, 0)
  | .finite s m => (0, signed s m)
  | .infinite false => (1, 0)
  | .nan false p => (2, p)

end EventQuery.Number
