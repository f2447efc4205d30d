import ObjectQuery.Number.Binary

/-!
The shortest decimal digits that read back as a given finite binary number, and among the shortest
ones those nearest to it. Grids `10 ^ k` are tried from coarse to fine; on each only the two points
around the number can lie in the interval of values that round to it.
-/

namespace ObjectQuery

/-- Digits of a positive decimal number: `digits · 10 ^ exponent`. -/
structure DecimalDigits where
  digits : Nat
  exponent : Int
deriving DecidableEq, Repr

/-- Which of two shortest forms at the same distance is taken. -/
inductive DigitTie where
  | larger
  | even
deriving DecidableEq, Repr

namespace Binary.Shortest

/-- The values that round to one magnitude: from `low` to `high` around `middle`, all three as
numerators over one common denominator. -/
structure Interval where
  low : Nat
  middle : Nat
  high : Nat
  denominator : Nat
  /-- Whether the end points themselves round to the magnitude. -/
  closed : Bool

/-- The interval of a positive magnitude; below a power of two the spacing is half as wide. -/
def Interval.around (f : BinaryFormat) (units : Nat) : Interval :=
  let gap := Nat.pow 2 (f.spacing units)
  let isPowerOfTwo := units == Nat.pow 2 units.log2
  let below := if isPowerOfTwo && 1 < gap then gap else 2 * gap
  { low := 4 * units - below
    middle := 4 * units
    high := 4 * units + 2 * gap
    denominator := 4 * Nat.pow 2 f.fractionBits
    closed := units / gap % 2 == 0 }

/-- The interval counted in units of a power of ten. -/
def Interval.onGrid (i : Interval) (exponent : Int) : Interval :=
  if 0 ≤ exponent then { i with denominator := i.denominator * Nat.pow 10 exponent.natAbs }
  else
    let factor := Nat.pow 10 exponent.natAbs
    { i with low := i.low * factor, middle := i.middle * factor, high := i.high * factor }

/-- Whether a count lies in the interval. -/
def Interval.covers (i : Interval) (n : Nat) : Bool :=
  let point := n * i.denominator
  if i.closed then i.low ≤ point && point ≤ i.high else i.low < point && point < i.high

/-- The count in the interval that is nearest to its middle. -/
def Interval.nearest? (i : Interval) (tie : DigitTie) : Option Nat :=
  let down := i.middle / i.denominator
  let up := down + 1
  match i.covers down, i.covers up with
  | false, false => none
  | true, false => some down
  | false, true => some up
  | true, true =>
    let fromDown := i.middle - down * i.denominator
    let fromUp := up * i.denominator - i.middle
    if fromDown < fromUp then some down
    else if fromUp < fromDown then some up
    else match tie with
      | .larger => some up
      | .even => some (if down % 2 = 0 then down else up)

/-- The first grid with a point in the interval, from `10 ^ exponent` down. -/
def search (i : Interval) (tie : DigitTie) : Nat → Int → DecimalDigits
  | 0, exponent => ⟨(i.onGrid exponent).middle / (i.onGrid exponent).denominator, exponent⟩
  | fuel + 1, exponent =>
    match (i.onGrid exponent).nearest? tie with
    | some n => ⟨n, exponent⟩
    | none => search i tie fuel (exponent - 1)

/-- The exponent of a power of ten above all numbers of so many units. -/
def topExponent (f : BinaryFormat) (units : Nat) : Int :=
  ((units.log2 + 1 : Nat) - (f.fractionBits : Int)) * 30103 / 100000 + 2

end Binary.Shortest

open Binary.Shortest in
/-- Shortest digits of a magnitude given in units of its format; zero has the digit `0`. A
significand of `p` bits has fewer than `p` grids between the first power of ten above it and its
spacing, which bounds the search. -/
def BinaryFormat.shortestDigits (f : BinaryFormat) (tie : DigitTie) (units : Nat) :
    DecimalDigits :=
  if units = 0 then ⟨0, 0⟩
  else search (Interval.around f units) tie f.precision (topExponent f units)

end ObjectQuery
