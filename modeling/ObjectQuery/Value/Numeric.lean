import ObjectQuery.Value

/-!
Promotion, comparison and arithmetic of numbers of mixed kinds. All kinds meet as decimals, so that
a number with a finite decimal form keeps it; binary numbers come in by their shortest digits.
Division alone is done in binary.
-/

namespace ObjectQuery.Value

/-- A number as a decimal; not-a-number and infinities have none. -/
def toDecimal? : Value → Option Decimal
  | byte n => some (.ofInt n.toInt)
  | short n => some (.ofInt n.toInt)
  | int n => some (.ofInt n.toInt)
  | long n => some (.ofInt n.toInt)
  | bigInteger n => some (.ofInt n)
  | float x => Decimal.ofBinary? x
  | double x => Decimal.ofBinary? x
  | decimal d => some d
  | _ => none

/-- The integer that a value of a bounded kind stands for. -/
def boundedIntegral? : Value → Option Int
  | byte n => some n.toInt
  | short n => some n.toInt
  | int n => some n.toInt
  | long n => some n.toInt
  | _ => none

/-- Whether an integer has a 64-bit form. -/
def fitsInt64 (n : Int) : Bool := Int64.minValue.toInt ≤ n && n ≤ Int64.maxValue.toInt

/-- An integral value as a 64-bit integer, if it fits. -/
def toInt64? : Value → Option Int64
  | bigInteger n => if fitsInt64 n then some (Int64.ofInt n) else none
  | value => value.boundedIntegral?.map Int64.ofInt

/-- A number as a double, rounded if it has to be. -/
def toDouble? : Value → Option Double
  | float x => some x.convert
  | double x => some x
  | decimal d => some d.toDouble
  | bigInteger n => some (Binary.ofInt n)
  | value => value.boundedIntegral?.map Binary.ofInt

/-- The double that a binary number stands for. -/
def binary? : Value → Option Double
  | float x => some x.convert
  | double x => some x
  | _ => none

/-- Order of two numbers of any kinds. Two bounded integers compare as integers, two binary numbers
as doubles, any other pair as decimals; so not-a-number has no order, and an infinity only one among
binary numbers. -/
def compareNumbers? (left right : Value) : Option Ordering :=
  match left.boundedIntegral?, right.boundedIntegral? with
  | some l, some r => some (compare l r)
  | _, _ =>
    match left.binary?, right.binary? with
    | some x, some y => x.compare? y
    | _, _ => do return (← left.toDecimal?).compare (← right.toDecimal?)

/-- The operations on numbers. -/
inductive Arithmetic where
  | add
  | sub
  | mul
  | div
  | mod
deriving DecidableEq, Repr

/-- Why an operation has no result: a zero divisor, or an operand or result that is not finite. -/
inductive ArithmeticFault where
  | divisionByZero
  | nonFinite
deriving DecidableEq, Repr

/-- A number as a double, which must be finite. -/
def finiteDouble (value : Value) : Except ArithmeticFault Double :=
  match value.toDouble? with
  | some x => if x.isFinite then .ok x else .error .nonFinite
  | none => .error .nonFinite

/-- The quotient as doubles give it, taken back to a decimal by its shortest digits. -/
def quotient (left right : Value) : Except ArithmeticFault Value := do
  let dividend ← finiteDouble left
  let divisor ← finiteDouble right
  if divisor.beq (.zero false) then throw .divisionByZero
  match Decimal.ofBinary? (dividend.div divisor) with
  | some d => return decimal d
  | none => throw .nonFinite

/-- A number as a decimal, which it must have. -/
def finiteDecimal (value : Value) : Except ArithmeticFault Decimal :=
  match value.toDecimal? with
  | some d => .ok d
  | none => .error .nonFinite

/-- Computes with two numbers. The result is always a decimal. -/
def applyArithmetic (op : Arithmetic) (left right : Value) : Except ArithmeticFault Value := do
  match op with
  | .div => quotient left right
  | .add => return decimal ((← finiteDecimal left).add (← finiteDecimal right))
  | .sub => return decimal ((← finiteDecimal left).sub (← finiteDecimal right))
  | .mul => return decimal ((← finiteDecimal left).mul (← finiteDecimal right))
  | .mod =>
    let dividend ← finiteDecimal left
    let divisor ← finiteDecimal right
    if divisor.isZero then throw .divisionByZero
    return decimal (dividend.rem divisor)

/-- The negated number, of the same kind; the least bounded integers stay what they are. -/
def negate? : Value → Option Value
  | byte n => some (byte (-n))
  | short n => some (short (-n))
  | int n => some (int (-n))
  | long n => some (long (-n))
  | bigInteger n => some (bigInteger (-n))
  | float x => some (float x.neg)
  | double x => some (double x.neg)
  | decimal d => some (decimal d.neg)
  | _ => none

/-- The absolute value, of the same kind; the least bounded integers stay what they are. -/
def abs? : Value → Option Value
  | byte n => some (byte (if n < 0 then -n else n))
  | short n => some (short (if n < 0 then -n else n))
  | int n => some (int (if n < 0 then -n else n))
  | long n => some (long (if n < 0 then -n else n))
  | bigInteger n => some (bigInteger n.natAbs)
  | float x => some (float x.abs)
  | double x => some (double x.abs)
  | decimal d => some (decimal d.abs)
  | _ => none

/-- Bitwise complement. Numbers with a fraction are truncated first, and a value that is no number
counts as a zero of the 32-bit kind. -/
def complement : Value → Value
  | byte n => byte (~~~n)
  | short n => short (~~~n)
  | int n => int (~~~n)
  | long n => long (~~~n)
  | bigInteger n => bigInteger (-n - 1)
  | float x => long (~~~(x.convert : Double).toInt64)
  | double x => long (~~~x.toInt64)
  | decimal d => long (~~~d.toDouble.toInt64)
  | _ => int (-1)

end ObjectQuery.Value
