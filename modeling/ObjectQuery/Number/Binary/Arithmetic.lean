import ObjectQuery.Number.Binary

/-!
Arithmetic of binary floating-point numbers: each operation is the exact result rounded once.
-/

namespace ObjectQuery.Binary

variable {f : BinaryFormat}

/-- The sum, rounded once. -/
def add : Binary f → Binary f → Binary f
  | nan, _ | _, nan => nan
  | infinite s, infinite t => if s = t then infinite s else nan
  | infinite s, finite .. | finite .., infinite s => infinite s
  | finite s m _, finite t n _ =>
    let left : Int := if s then -m else m
    let right : Int := if t then -n else n
    let sum := left + right
    if sum = 0 then zero (s && t)
    else ofUnits (sum < 0) (roundUnits f sum.natAbs 1)

/-- The product, rounded once. -/
def mul : Binary f → Binary f → Binary f
  | nan, _ | _, nan => nan
  | infinite s, infinite t => infinite (s != t)
  | infinite s, finite t n _ | finite t n _, infinite s =>
    if n = 0 then nan else infinite (s != t)
  | finite s m _, finite t n _ => ofUnits (s != t) (roundUnits f (m * n) (Nat.pow 2 f.fractionBits))

/-- The quotient, rounded once. -/
def div : Binary f → Binary f → Binary f
  | nan, _ | _, nan => nan
  | infinite _, infinite _ => nan
  | infinite s, finite t _ _ => infinite (s != t)
  | finite s _ _, infinite t => zero (s != t)
  | finite s m _, finite t n _ =>
    if n = 0 then if m = 0 then nan else infinite (s != t)
    else ofUnits (s != t) (roundUnits f (m * Nat.pow 2 f.fractionBits) n)

/-- The largest integer whose square is at most `n`, found one binary digit at a time. -/
def floorSqrt (n : Nat) : Nat := go (n.log2 / 2 + 1) 0
where
  go : Nat → Nat → Nat
    | 0, root => root
    | bit + 1, root =>
      let candidate := root + Nat.pow 2 bit
      if candidate * candidate ≤ n then go bit candidate else go bit root

/-- The square root; below zero there is none, but a zero keeps its sign. -/
def sqrt : Binary f → Binary f
  | nan => nan
  | infinite negative => if negative then nan else infinite false
  | finite negative units fits =>
    if units = 0 then finite negative units fits
    else if negative then nan
    else
      let square := units * Nat.pow 2 f.fractionBits
      let root := floorSqrt square
      let gap := Nat.pow 2 (f.spacing root)
      let kept := root / gap
      let middle := (2 * kept + 1) * gap
      let roundsUp := middle * middle < 4 * square ||
        (middle * middle == 4 * square && kept % 2 == 1)
      ofUnits false ((if roundsUp then kept + 1 else kept) * gap)

/-- A power with a natural exponent by repeated squaring, each product rounded. -/
def pow (base : Binary f) (exponent : Nat) : Binary f :=
  go (exponent.log2 + 1) exponent base (ofInt 1)
where
  go : Nat → Nat → Binary f → Binary f → Binary f
    | 0, _, _, product => product
    | bits + 1, exponent, square, product =>
      let product := if exponent % 2 = 1 then mul product square else product
      if exponent / 2 = 0 then product else go bits (exponent / 2) (mul square square) product

/-- The sum from left to right; with nothing to add it is negative zero. -/
def sum (xs : List (Binary f)) : Binary f := xs.foldl add (zero true)

end ObjectQuery.Binary
