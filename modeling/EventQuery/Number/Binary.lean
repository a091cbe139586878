import EventQuery.Number.Format

/-!
The two floating point types of event attributes, held as their words so that signed zeros and
not-a-numbers stay apart.
-/

namespace EventQuery.Number

/-- A 32-bit floating point number. -/
structure Single where
  word : UInt32
  deriving DecidableEq, Repr, Inhabited

/-- A 64-bit floating point number. -/
structure Double where
  word : UInt64
  deriving DecidableEq, Repr, Inhabited

def Single.datum (x : Single) : Datum := Format.single.decode x.word.toNat

def Double.datum (x : Double) : Datum := Format.double.decode x.word.toNat

def Double.ofNatWord (w : Nat) : Double := ⟨UInt64.ofNat w⟩

/-- Positive zero. -/
def Double.zero : Double := ⟨0⟩

/-- The double nearest to a whole number. -/
def Double.ofInt (i : Int) : Double := .ofNatWord (Format.double.ofInt i)

def Double.add (x y : Double) : Double := .ofNatWord (Format.double.add x.datum y.datum)

def Double.sub (x y : Double) : Double := .ofNatWord (Format.double.add x.datum y.datum.negate)

def Double.mul (x y : Double) : Double := .ofNatWord (Format.double.mul x.datum y.datum)

def Double.div (x y : Double) : Double := .ofNatWord (Format.double.div x.datum y.datum)

def Double.rem (x y : Double) : Double := .ofNatWord (Format.double.rem x.datum y.datum)

/-- The double equal to a single; every single is one. -/
def Single.toDouble (x : Single) : Double := .ofNatWord (Format.single.convert .double x.datum)

/-- The single nearest to a double. -/
def Double.toSingle (x : Double) : Single := ⟨UInt32.ofNat (Format.double.convert .single x.datum)⟩

/-- The whole part as a 32-bit integer; a number out of range gives the nearest bound. -/
def Double.toInt32 (x : Double) : Int32 :=
  .ofInt (Format.double.truncateWithin Int32.minValue.toInt Int32.maxValue.toInt x.datum)

/-- The whole part as a 64-bit integer; a number out of range gives the nearest bound. -/
def Double.toInt64 (x : Double) : Int64 :=
  .ofInt (Format.double.truncateWithin Int64.minValue.toInt Int64.maxValue.toInt x.datum)

/-- The place of a double in the order of all numbers. -/
def Double.rank (x : Double) : Int × Int := x.datum.rank

/-- The place of a whole number in the same order. -/
def rankOfInt (i : Int) : Int × Int := (0, i * pow2 Format.double.unitShift)

end EventQuery.Number
