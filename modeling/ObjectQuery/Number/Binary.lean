/-!
Binary floating-point numbers with exact arithmetic underneath. Every finite number of a format is a
whole count of the format's least positive number, so a finite number is stored as that count with a
sign, values compare as integers, and rounding is the one place where precision is lost.
-/

namespace ObjectQuery

/-- A binary floating-point format: how many bits a significand has and which magnitudes exist. -/
structure BinaryFormat where
  /-- Bits of a significand. -/
  precision : Nat
  /-- The least positive number, the unit of the format, is `2 ^ -fractionBits`. -/
  fractionBits : Nat
  /-- Finite magnitudes stay below `2 ^ magnitudeBits` units. -/
  magnitudeBits : Nat

namespace BinaryFormat

def single : BinaryFormat := ⟨24, 149, 277⟩

def double : BinaryFormat := ⟨53, 1074, 2098⟩

/-- How many bits a number of units has more than the format can keep. -/
def spacing (f : BinaryFormat) (units : Nat) : Nat := units.log2 + 1 - f.precision

/-- A magnitude of the format: in range, with no bit below its spacing. -/
def Fits (f : BinaryFormat) (units : Nat) : Prop :=
  units < Nat.pow 2 f.magnitudeBits ∧ Nat.pow 2 (f.spacing units) ∣ units

instance (f : BinaryFormat) (units : Nat) : Decidable (f.Fits units) :=
  inferInstanceAs (Decidable (_ ∧ _))

theorem fits_zero (f : BinaryFormat) : f.Fits 0 :=
  ⟨Nat.two_pow_pos _, Nat.dvd_zero _⟩

end BinaryFormat

/-- The quotient rounded to the nearest integer, a half to the even one. -/
def roundHalfEven (numerator denominator : Nat) : Nat :=
  let quotient := numerator / denominator
  let twice := 2 * (numerator % denominator)
  if denominator < twice || (twice == denominator && quotient % 2 == 1) then quotient + 1
  else quotient

/-- A number of a binary format; there is one not-a-number, and zero has a sign. -/
inductive Binary (f : BinaryFormat) where
  | nan
  | infinite (negative : Bool)
  | finite (negative : Bool) (units : Nat) (fits : f.Fits units)

abbrev Single := Binary .single

abbrev Double := Binary .double

namespace Binary

variable {f g : BinaryFormat}

/-- The zero of either sign. -/
def zero (negative : Bool) : Binary f := .finite negative 0 f.fits_zero

instance : Inhabited (Binary f) := ⟨zero false⟩

def isNan : Binary f → Bool
  | nan => true
  | _ => false

def isFinite : Binary f → Bool
  | finite .. => true
  | _ => false

def neg : Binary f → Binary f
  | nan => nan
  | infinite negative => infinite (!negative)
  | finite negative units fits => finite (!negative) units fits

def abs : Binary f → Binary f
  | nan => nan
  | infinite _ => infinite false
  | finite _ units fits => finite false units fits

/-- The number in units of its format, infinities lying just past the finite range. -/
def rank? : Binary f → Option Int
  | nan => none
  | infinite negative =>
    let bound : Int := Nat.pow 2 f.magnitudeBits
    some (if negative then -bound else bound)
  | finite negative units _ => some (if negative then -units else units)

/-- Order by value: zeros are equal whatever their signs, and not-a-number has no order. -/
def compare? (x y : Binary f) : Option Ordering := do
  return compare (← x.rank?) (← y.rank?)

/-- Whether two numbers are equal; not-a-number equals nothing. -/
def beq (x y : Binary f) : Bool := x.compare? y == some .eq

/-- The magnitude of a count of units that has at most a significand's bits, or infinity. -/
def ofUnits (negative : Bool) (units : Nat) : Binary f :=
  if fits : f.Fits units then .finite negative units fits else .infinite negative

/-- The magnitude of `f` nearest to `numerator / denominator` units, as a count of units. -/
def roundUnits (f : BinaryFormat) (numerator denominator : Nat) : Nat :=
  let gap := Nat.pow 2 (f.spacing (numerator / denominator))
  roundHalfEven numerator (denominator * gap) * gap

/-- The number nearest to a ratio. -/
def ofRatio (negative : Bool) (numerator denominator : Nat) : Binary f :=
  ofUnits negative (roundUnits f (numerator * Nat.pow 2 f.fractionBits) denominator)

/-- The number nearest to an integer. -/
def ofInt (n : Int) : Binary f := ofRatio (n < 0) n.natAbs 1

/-- The number nearest to `digits · 10 ^ -scale`. Values past every magnitude of the format, and
those below half its unit, are told by their size before any power of ten is formed. -/
def ofDigits (negative : Bool) (digits : Nat) (scale : Int) : Binary f :=
  if digits = 0 then zero negative
  else if scale ≤ 0 then
    if f.magnitudeBits < scale.natAbs then .infinite negative
    else ofRatio negative (digits * Nat.pow 10 scale.natAbs) 1
  else if digits.log2 + f.fractionBits + 2 < scale.natAbs then zero negative
  else ofRatio negative digits (Nat.pow 10 scale.natAbs)

/-- The number in another format, rounded if it has to be. -/
def convert : Binary f → Binary g
  | nan => nan
  | infinite negative => infinite negative
  | finite negative units _ => ofRatio negative units (Nat.pow 2 f.fractionBits)

/-- The integer part, held within the 64-bit range; not-a-number counts as zero. -/
def toInt64 : Binary f → Int64
  | nan => 0
  | infinite negative => if negative then Int64.minValue else Int64.maxValue
  | finite negative units _ =>
    let whole : Int := (units / Nat.pow 2 f.fractionBits : Nat)
    let signed := if negative then -whole else whole
    if signed < Int64.minValue.toInt then Int64.minValue
    else if Int64.maxValue.toInt < signed then Int64.maxValue
    else Int64.ofInt signed

end Binary

end ObjectQuery
