import ObjectQuery.Number.Decimal

/-!
Reading and writing of numbers as decimal text: integers, decimals, and binary numbers written
without an exponent.
-/

namespace ObjectQuery

namespace Numeral

def digit? (c : Char) : Option Nat :=
  if '0' ≤ c && c ≤ '9' then some (c.toNat - '0'.toNat) else none

/-- Digits with `_` allowed after the first, from the left. -/
def natural? : List Char → Option Nat
  | [] => none
  | c :: rest => do
    let first ← digit? c
    (rest.filter (· != '_')).foldlM (fun value c => do return value * 10 + (← digit? c)) first

/-- One leading sign is taken off; the rest must be a numeral in its own right. -/
def signed (cs : List Char) : Bool × List Char :=
  match cs with
  | '-' :: rest => (true, rest)
  | '+' :: rest => (false, rest)
  | _ => (false, cs)

/-- An integer with an optional sign; a plus sign may follow neither sign. -/
def integer? (cs : List Char) : Option Int := do
  let (negative, digits) := signed cs
  let value ← natural? digits
  return if negative then -(value : Int) else value

end Numeral

namespace Decimal

/-- The exponent behind the letter, without separators between its digits. -/
def exponent? (cs : List Char) : Option Int :=
  if cs.contains '_' then none else Numeral.integer? cs

/-- Reads a decimal: an integer numeral in which one point may stand, then an optional exponent.
The scale is the number of characters behind the point, `_` not counted, less the exponent. -/
def ofChars? (cs : List Char) : Option Decimal := do
  let isMark (c : Char) : Bool := c == 'e' || c == 'E'
  let mantissa := cs.takeWhile (!isMark ·)
  let exponent ← match cs.dropWhile (!isMark ·) with
    | [] => some 0
    | _ :: rest => exponent? rest
  let whole := mantissa.takeWhile (· != '.')
  let fraction := (mantissa.dropWhile (· != '.')).drop 1
  let unscaled ← Numeral.integer? (whole ++ fraction)
  let scale := ((fraction.filter (· != '_')).length : Int) - exponent
  if scaleFits scale then return ⟨unscaled, scale⟩ else none

/-- Reads a decimal. -/
def ofString? (text : String) : Option Decimal := ofChars? text.toList

/-- Zeros after the point beyond which an exponent is written. -/
def leadingZerosWritten : Int := 5

/-- Zeros before the point beyond which an exponent is written. -/
def trailingZerosWritten : Int := 15

/-- Digits with a point so many places before their end. -/
def insertPoint (digits : String) (places : Nat) : String :=
  if places = 0 then digits
  else
    let padded := List.replicate (places + 1 - digits.length) '0' ++ digits.toList
    let whole := padded.take (padded.length - places)
    String.ofList (whole ++ '.' :: padded.drop (padded.length - places))

/-- Digits with a point behind the first and an exponent. -/
def scientific (digits : String) (exponent : Int) : String :=
  let mantissa := match digits.toList with
    | first :: second :: rest => String.ofList (first :: '.' :: second :: rest)
    | short => String.ofList short
  let sign := if exponent < 0 then "" else "+"
  mantissa ++ "E" ++ sign ++ toString exponent

/-- Writes a decimal with every place that its scale gives it, unless an exponent is shorter. -/
def toText (d : Decimal) : String :=
  if d.isZero then "0"
  else
    let digits := toString d.unscaled.natAbs
    let sign := if d.unscaled < 0 then "-" else ""
    let magnitude :=
      if 0 < d.scale then
        if leadingZerosWritten < d.scale - digits.length then
          scientific digits (digits.length - d.scale - 1)
        else insertPoint digits d.scale.toNat
      else if trailingZerosWritten < -d.scale then digits ++ "e+" ++ toString (-d.scale)
      else digits ++ String.ofList (List.replicate d.scale.natAbs '0')
    sign ++ magnitude

end Decimal

namespace Binary

variable {f : BinaryFormat}

def toText : Binary f → String
  | .nan => "NaN"
  | .infinite negative => if negative then "-inf" else "inf"
  | .finite negative units _ =>
    let shortest := f.shortestDigits .larger units
    let digits := toString shortest.digits
    let magnitude :=
      if 0 ≤ shortest.exponent then
        digits ++ String.ofList (List.replicate shortest.exponent.natAbs '0')
      else Decimal.insertPoint digits shortest.exponent.natAbs
    (if negative then "-" else "") ++ magnitude

/-- Reads a binary number, the names of the special ones included. -/
def ofString? (text : String) : Option (Binary f) :=
  match text with
  | "NaN" => some .nan
  | "inf" => some (.infinite false)
  | "-inf" => some (.infinite true)
  | _ => do
    let d ← Decimal.ofString? text
    return .ofDigits (text.startsWith "-") d.unscaled.natAbs d.scale

end Binary

end ObjectQuery
