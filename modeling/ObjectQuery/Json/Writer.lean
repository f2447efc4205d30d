import ObjectQuery.Json
import ObjectQuery.Number.Decimal.Text
import ObjectQuery.Text.Hexadecimal

/-!
Writing of JSON text, without blanks.
-/

namespace ObjectQuery

/-- The exponents for which a number is written without one. -/
structure ExponentRange where
  least : Int
  greatest : Int

namespace Json

/-- Doubles are written by position from `0.00001` up to sixteen digits before the point. -/
def doubleRange : ExponentRange := ⟨-5, 15⟩

/-- Singles are written by position from `0.000001` up to thirteen digits before the point. -/
def singleRange : ExponentRange := ⟨-6, 12⟩

/-- Writes the digits by position, always with a point. -/
def positional (digits : List Char) (exponent : Int) : List Char :=
  if exponent < 0 then
    '0' :: '.' :: List.replicate (exponent.natAbs - 1) '0' ++ digits
  else
    let places := exponent.natAbs + 1
    let whole := digits.take places ++ List.replicate (places - digits.length) '0'
    let fraction := digits.drop places
    whole ++ '.' :: (if fraction = [] then ['0'] else fraction)

/-- Writes the digits with one of them before the point, if there are more, and an exponent that
has its sign. -/
def withExponent (digits : List Char) (exponent : Int) : List Char :=
  let mantissa := match digits with
    | first :: second :: rest => first :: '.' :: second :: rest
    | short => short
  let sign := if exponent < 0 then '-' else '+'
  mantissa ++ 'e' :: sign :: (toString exponent.natAbs).toList

/-- A finite number by its shortest digits; of two equally near ones the even one is written. -/
def renderBinary {f : BinaryFormat} (range : ExponentRange) : Binary f → String
  | .nan | .infinite _ => "null"
  | .finite negative units _ =>
    let magnitude :=
      if units = 0 then ['0', '.', '0']
      else
        let shortest := f.shortestDigits .even units
        let digits := (toString shortest.digits).toList
        let exponent := shortest.exponent + digits.length - 1
        if range.least ≤ exponent && exponent ≤ range.greatest then positional digits exponent
        else withExponent digits exponent
    String.ofList (if negative then '-' :: magnitude else magnitude)

def renderNumber : JsonNumber → String
  | .integer n => toString n
  | .double x => renderBinary doubleRange x
  | .single x => renderBinary singleRange x

/-- A character as it stands between quotes. -/
def escape (c : Char) : List Char :=
  match c with
  | '"' => ['\\', '"']
  | '\\' => ['\\', '\\']
  | '\x08' => ['\\', 'b']
  | '\x0c' => ['\\', 'f']
  | '\n' => ['\\', 'n']
  | '\r' => ['\\', 'r']
  | '\t' => ['\\', 't']
  | c =>
    if c.toNat < 0x20 then
      ['\\', 'u', '0', '0', Hexadecimal.lowerDigit (c.toNat / 16),
        Hexadecimal.lowerDigit (c.toNat % 16)]
    else [c]

def quote (s : String) : String := String.ofList ('"' :: s.toList.flatMap escape ++ ['"'])

mutual

/-- The text of a JSON value, without blanks. -/
def render : Json → String
  | .null | .unreadable => "null"
  | .boolean b => if b then "true" else "false"
  | .number n => renderNumber n
  | .string s => quote s
  | .array items => "[" ++ String.intercalate "," (renderItems items) ++ "]"
  | .object members => "\x7b" ++ String.intercalate "," (renderMembers members) ++ "\x7d"

def renderItems : List Json → List String
  | [] => []
  | item :: rest => render item :: renderItems rest

def renderMembers : List (String × Json) → List String
  | [] => []
  | (name, value) :: rest => (quote name ++ ":" ++ render value) :: renderMembers rest

end

end Json

end ObjectQuery
