import ObjectQuery.Number.Binary.Arithmetic
import ObjectQuery.Number.Binary.Shortest

/-!
Decimals of any precision: an integer and a scale of 64 bits. Sums, differences and remainders are
exact, and products whose scale has 64 bits; a quotient keeps a hundred digits. The scale of a
result says how many places are written.
-/

namespace ObjectQuery

/-- The number `unscaled · 10 ^ -scale`. -/
structure Decimal where
  unscaled : Int
  scale : Int
deriving Inhabited, Repr

namespace Decimal

/-- Whether a scale has 64 bits, as all have that are read or computed. -/
def scaleFits (scale : Int) : Bool := Int64.minValue.toInt ≤ scale && scale ≤ Int64.maxValue.toInt

/-- The decimal with the last 64 bits of the scale. -/
def wrapped (d : Decimal) : Decimal := { d with scale := (Int64.ofInt d.scale).toInt }

/-- An integer as a decimal of scale zero. -/
def ofInt (n : Int) : Decimal := ⟨n, 0⟩

/-- The unscaled integer at a scale that is no less than the decimal's own. -/
def unscaledAt (d : Decimal) (scale : Int) : Int :=
  d.unscaled * (Nat.pow 10 (scale - d.scale).toNat : Nat)

/-- Order by magnitude, whatever the scales. -/
def compare (a b : Decimal) : Ordering :=
  let scale := max a.scale b.scale
  Ord.compare (a.unscaledAt scale) (b.unscaledAt scale)

/-- Whether two decimals are the same number. -/
def beq (a b : Decimal) : Bool := a.compare b == .eq

def isZero (d : Decimal) : Bool := d.unscaled == 0

def isOne (d : Decimal) : Bool := d.beq (ofInt 1)

def neg (d : Decimal) : Decimal := ⟨-d.unscaled, d.scale⟩

def abs (d : Decimal) : Decimal := ⟨d.unscaled.natAbs, d.scale⟩

/-- The sum, at the greater of the scales. -/
def add (a b : Decimal) : Decimal :=
  let scale := max a.scale b.scale
  ⟨a.unscaledAt scale + b.unscaledAt scale, scale⟩

/-- The difference; subtracting zero, or from zero, keeps the other operand's scale. -/
def sub (a b : Decimal) : Decimal :=
  if b.isZero then a
  else if a.isZero then b.neg
  else
    let scale := max a.scale b.scale
    ⟨a.unscaledAt scale - b.unscaledAt scale, scale⟩

/-- The product at a scale of any size; a factor of one keeps the other operand's scale. -/
def product (a b : Decimal) : Decimal :=
  if a.isOne then b
  else if b.isOne then a
  else ⟨a.unscaled * b.unscaled, a.scale + b.scale⟩

/-- The product, at a scale that is cut to 64 bits. -/
def mul (a b : Decimal) : Decimal := (a.product b).wrapped

/-- The remainder of the truncated quotient, with the sign of the dividend. -/
def rem (a b : Decimal) : Decimal :=
  let scale := max a.scale b.scale
  ⟨(a.unscaledAt scale).tmod (b.unscaledAt scale), scale⟩

/-- How many decimal digits a number is written with. -/
def digitCount (n : Nat) : Nat := (Nat.toDigits 10 n).length

/-- How many digits a quotient has at most. -/
def quotientDigits : Nat := 100

/-- Raises the numerator by powers of ten until it reaches the denominator. -/
def raise (denominator : Nat) : Nat → Nat → Int → Nat × Int
  | 0, numerator, scale => (numerator, scale)
  | fuel + 1, numerator, scale =>
    if numerator < denominator then raise denominator fuel (numerator * 10) (scale + 1)
    else (numerator, scale)

/-- Appends digits of the expansion while a remainder is left and places are free, then rounds. -/
def expand (denominator : Nat) : Nat → Nat → Nat → Int → Decimal
  | 0, quotient, remainder, scale =>
    ⟨(if denominator ≤ 2 * remainder then quotient + 1 else quotient : Nat), scale⟩
  | places + 1, quotient, remainder, scale =>
    if remainder = 0 then ⟨quotient, scale⟩
    else
      let next := remainder * 10
      expand denominator places (quotient * 10 + next / denominator) (next % denominator)
        (scale + 1)

/-- The quotient of two decimals, to a hundred digits with a half rounded up in magnitude, at a
scale of any size. -/
def quotient (a b : Decimal) : Decimal :=
  if a.isZero || b.isOne then a
  else if a.unscaled = b.unscaled then ⟨1, a.scale - b.scale⟩
  else
    let denominator := b.unscaled.natAbs
    let (numerator, scale) :=
      raise denominator (digitCount denominator) a.unscaled.natAbs (a.scale - b.scale)
    let whole := numerator / denominator
    let magnitude :=
      expand denominator (quotientDigits - digitCount whole) whole (numerator % denominator) scale
    if (a.unscaled < 0) != (b.unscaled < 0) then magnitude.neg else magnitude

/-- The quotient, at a scale that is cut to 64 bits. -/
def div (a b : Decimal) : Decimal := (a.quotient b).wrapped

/-- A finite binary number by its shortest digits. -/
def ofBinary? {f : BinaryFormat} : Binary f → Option Decimal
  | .nan | .infinite _ => none
  | .finite negative units _ =>
    let shortest := f.shortestDigits .larger units
    let magnitude : Decimal :=
      if 0 ≤ shortest.exponent then
        ⟨(shortest.digits * Nat.pow 10 shortest.exponent.natAbs : Nat), 0⟩
      else ⟨shortest.digits, -shortest.exponent⟩
    some (if negative then magnitude.neg else magnitude)

/-- The decimal that equals a finite binary number exactly, at the least scale that can. -/
def ofBinaryExact? {f : BinaryFormat} : Binary f → Option Decimal
  | .nan | .infinite _ => none
  | .finite negative units _ =>
    let (odd, places) := halve f.fractionBits units f.fractionBits
    let magnitude : Decimal := ⟨(odd * Nat.pow 5 places : Nat), places⟩
    some (if negative then magnitude.neg else magnitude)
where
  /-- Cancels the common powers of two of `units / 2 ^ places`. -/
  halve : Nat → Nat → Nat → Nat × Nat
    | 0, units, places => (units, places)
    | fuel + 1, units, places =>
      if units % 2 = 0 && 0 < places then halve fuel (units / 2) (places - 1) else (units, places)

/-- Digits that take part when a decimal with a scale is turned into a binary number. -/
def significantDigits : Nat := 25

/-- Digits cut off at a time when there are more. -/
def digitsCut : Nat := 19

/-- A decimal as a binary number: the nearest one, save that surplus digits are cut off first
and that powers of ten above the point are multiplied in binary arithmetic. -/
def toDouble (d : Decimal) : Double :=
  if d.isZero then Binary.zero false
  else if d.scale = 0 then Binary.ofInt d.unscaled
  else
    let bits := d.unscaled.natAbs.log2 + 1
    let digits := (bits + 1) * 30102999566398120 / 100000000000000000
    let cuts := (digits - significantDigits) / digitsCut
    let magnitude := d.unscaled.natAbs / Nat.pow 10 (digitsCut * cuts)
    let scale := d.scale - (digitsCut * cuts : Nat)
    let negative : Bool := d.unscaled < 0
    if 0 < scale then Binary.ofDigits negative magnitude scale
    else
      let power := Binary.pow (Binary.ofInt 10) scale.natAbs
      Binary.mul (Binary.ofInt (if negative then -magnitude else magnitude)) power

end Decimal

end ObjectQuery
