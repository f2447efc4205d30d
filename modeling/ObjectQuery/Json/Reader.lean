import ObjectQuery.Json
import ObjectQuery.Number.Decimal.Text
import ObjectQuery.Text.Hexadecimal

/-!
Reading of JSON text. Every reading function takes the characters from where it stands and returns
what is left behind the part it has read.
-/

namespace ObjectQuery.Json

/-- Containers may be nested less deep than this. -/
def nestingLimit : Nat := 128

def isBlank (c : Char) : Bool := c == ' ' || c == '\n' || c == '\t' || c == '\r'

/-- The characters behind the blanks at the front. -/
def skipBlank (cs : List Char) : List Char := cs.dropWhile isBlank

/-! ### Numbers -/

/-- The digits in front that a 64-bit count can take in after `count`, and the rest. -/
def takeFitting (count : Nat) : List Nat → Nat × List Nat
  | [] => (count, [])
  | digit :: rest =>
    if count * 10 + digit < UInt64.size then takeFitting (count * 10 + digit) rest
    else (count, digit :: rest)

/-- The greatest power of ten by which a count is scaled in one step. -/
def powerLimit : Nat := 308

/-- Scales a count by a power of ten in floating point; `none` past the largest double. Far below
one, the count is first divided by the greatest power, and is zero after a few such steps. -/
def scaleByTen : Nat → Double → Int → Option Double
  | 0, x, _ => some x
  | fuel + 1, x, exponent =>
    if exponent.natAbs ≤ powerLimit then
      let power : Double := .ofDigits false 1 (-(exponent.natAbs : Int))
      if 0 ≤ exponent then
        let product := x.mul power
        if product.isFinite then some product else none
      else some (x.div power)
    else if x.beq (.zero false) then some x
    else if 0 ≤ exponent then none
    else scaleByTen fuel (x.div (.ofDigits false 1 (-(powerLimit : Int)))) (exponent + powerLimit)

/-- Steps of division by the greatest power after which any 64-bit count is zero. -/
def scalingSteps : Nat := 4

/-- A numeral in its parts; `fraction` and `exponent` are `none` where the text has none. -/
structure Numeral where
  negative : Bool
  whole : List Nat
  fraction : Option (List Nat)
  exponent : Option Int

/-- The number that a numeral is read as. A numeral without fraction and exponent is an integer
while it fits 64 bits. Any other takes the leading digits that a 64-bit count can hold, drops the
further ones, and scales the count by a power of ten. -/
def Numeral.toJson (n : Numeral) : Json :=
  let (count, surplus) := takeFitting 0 n.whole
  match n.fraction, n.exponent, surplus with
  | none, none, [] =>
    if !n.negative then ofInt count
    else if 0 < count && count ≤ Int64.minValue.toInt.natAbs then ofInt (-(count : Int))
    else ofDouble (Binary.ofInt count).neg
  | _, _, _ =>
    let digits := n.fraction.getD []
    let (count, dropped) := takeFitting count digits
    let taken := digits.length - dropped.length
    let exponent := (surplus.length : Int) - taken + n.exponent.getD 0
    match scaleByTen scalingSteps (Binary.ofInt count) exponent with
    | some x => ofDouble (if n.negative then x.neg else x)
    | none => .unreadable

/-- The digits at the front and what stands behind them. -/
def takeDigits : List Char → List Nat × List Char
  | [] => ([], [])
  | c :: rest =>
    match ObjectQuery.Numeral.digit? c with
    | some digit =>
      let (digits, left) := takeDigits rest
      (digit :: digits, left)
    | none => ([], c :: rest)

/-- At least one digit, and what stands behind. -/
def digits? (cs : List Char) : Option (List Nat × List Char) :=
  match takeDigits cs with
  | ([], _) => none
  | found => some found

/-- An exponent with its sign, and what stands behind. -/
def exponent? (cs : List Char) : Option (Int × List Char) := do
  let (negative, rest) := match cs with
    | '-' :: rest => (true, rest)
    | '+' :: rest => (false, rest)
    | _ => (false, cs)
  let (digits, rest) ← digits? rest
  let value : Int := (digits.foldl (fun value digit => value * 10 + digit) 0 : Nat)
  return (if negative then -value else value, rest)

/-- A numeral: no zero in front of other digits, and digits on both sides of a point. -/
def numeral? (cs : List Char) : Option (Numeral × List Char) := do
  let (negative, rest) := match cs with
    | '-' :: rest => (true, rest)
    | _ => (false, cs)
  let (whole, rest) ← digits? rest
  if whole.head? = some 0 && 1 < whole.length then none
  let (fraction, rest) ← match rest with
    | '.' :: rest => (digits? rest).map fun (digits, rest) => (some digits, rest)
    | _ => some (none, rest)
  let (exponent, rest) ← match rest with
    | 'e' :: rest | 'E' :: rest => (exponent? rest).map fun (e, rest) => (some e, rest)
    | _ => some (none, rest)
  return (⟨negative, whole, fraction, exponent⟩, rest)

/-! ### Texts -/

/-- The code of four hexadecimal digits. -/
def hexCode? (a b c d : Char) : Option Nat :=
  [a, b, c, d].foldlM (fun code digit => do return code * 16 + (← Hexadecimal.digit? digit)) 0

def isHighSurrogate (code : Nat) : Bool := 0xD800 ≤ code && code < 0xDC00

def isLowSurrogate (code : Nat) : Bool := 0xDC00 ≤ code && code < 0xE000

/-- The character that a pair of halves stands for. -/
def joinSurrogates (high low : Nat) : Char :=
  Char.ofNat (0x10000 + (high - 0xD800) * 0x400 + (low - 0xDC00))

/-- The character that a letter behind a backslash stands for. -/
def escaped? : Char → Option Char
  | '"' => some '"'
  | '\\' => some '\\'
  | '/' => some '/'
  | 'b' => some '\x08'
  | 'f' => some '\x0c'
  | 'n' => some '\n'
  | 'r' => some '\r'
  | 't' => some '\t'
  | _ => none

/-- Reads up to the closing quote. What has been read is in `before`, last character first, and is
lost (`none`) once half a surrogate pair stands alone; `high` is a first half just read. -/
def text? (before : Option (List Char)) (high : Option Nat) :
    List Char → Option (Option String × List Char)
  | [] => none
  | '"' :: rest =>
    let whole := if high.isSome then none else before
    some (whole.map fun cs => String.ofList cs.reverse, rest)
  | '\\' :: 'u' :: a :: b :: c :: d :: rest =>
    match hexCode? a b c d with
    | none => none
    | some code =>
      match high with
      | some first =>
        if isLowSurrogate code then text? (before.map (joinSurrogates first code :: ·)) none rest
        else text? none none rest
      | none =>
        if isHighSurrogate code then text? before (some code) rest
        else if isLowSurrogate code then text? none none rest
        else text? (before.map (Char.ofNat code :: ·)) none rest
  | '\\' :: c :: rest =>
    match escaped? c with
    | none => none
    | some c => text? (if high.isSome then none else before.map (c :: ·)) none rest
  | c :: rest =>
    if c.toNat < 0x20 || c == '\\' then none
    else text? (if high.isSome then none else before.map (c :: ·)) none rest

/-! ### Trees -/

/-- A value at this depth, unreadable if it lies too deep. -/
def nested (depth : Nat) (json : Json) : Json := if depth ≤ 1 then .unreadable else json

def ofMembers (members : List (Option String × Json)) : Json :=
  match members.mapM fun (name, value) => name.map (·, value) with
  | some members => .object members
  | none => .unreadable

mutual

/-- Reads a value. Each call reads at least one character, so their number bounds the fuel. -/
def readValue? : Nat → Nat → List Char → Option (Json × List Char)
  | 0, _, _ => none
  | fuel + 1, depth, cs =>
    match skipBlank cs with
    | 'n' :: 'u' :: 'l' :: 'l' :: rest => some (.null, rest)
    | 't' :: 'r' :: 'u' :: 'e' :: rest => some (.boolean true, rest)
    | 'f' :: 'a' :: 'l' :: 's' :: 'e' :: rest => some (.boolean false, rest)
    | '"' :: rest => do
      let (text, rest) ← text? (some []) none rest
      return ((text.map .string).getD .unreadable, rest)
    | '[' :: rest =>
      match skipBlank rest with
      | ']' :: rest => some (nested depth (.array []), rest)
      | rest => do
        let (items, rest) ← readItems? fuel (depth - 1) rest []
        return (nested depth (.array items), rest)
    | '\x7b' :: rest =>
      match skipBlank rest with
      | '\x7d' :: rest => some (nested depth (.object []), rest)
      | rest => do
        let (members, rest) ← readMembers? fuel (depth - 1) rest []
        return (nested depth (ofMembers members), rest)
    | rest => do
      let (numeral, rest) ← numeral? rest
      return (numeral.toJson, rest)

/-- Reads the items of an array up to its end; those read are in `before`, last one first. -/
def readItems? : Nat → Nat → List Char → List Json → Option (List Json × List Char)
  | 0, _, _, _ => none
  | fuel + 1, depth, cs, before => do
    let (item, rest) ← readValue? fuel depth cs
    match skipBlank rest with
    | ',' :: rest => readItems? fuel depth rest (item :: before)
    | ']' :: rest => return ((item :: before).reverse, rest)
    | _ => none

/-- Reads members up to the closing brace. -/
def readMembers? : Nat → Nat → List Char → List (Option String × Json) →
    Option (List (Option String × Json) × List Char)
  | 0, _, _, _ => none
  | fuel + 1, depth, cs, before =>
    match skipBlank cs with
    | '"' :: rest => do
      let (name, rest) ← text? (some []) none rest
      match skipBlank rest with
      | ':' :: rest =>
        let (value, rest) ← readValue? fuel depth rest
        match skipBlank rest with
        | ',' :: rest => readMembers? fuel depth rest ((name, value) :: before)
        | '\x7d' :: rest => return (((name, value) :: before).reverse, rest)
        | _ => none
      | _ => none
    | _ => none

end

/-- Reads a text that is one JSON value. -/
def read? (text : String) : Option Json := do
  let cs := text.toList
  let (json, rest) ← readValue? (2 * cs.length + 2) nestingLimit cs
  if skipBlank rest = [] then return json else none

/-- Reads a text that is one JSON value without unreadable parts. -/
def readAll? (text : String) : Option Json := do
  let json ← read? text
  if json.readable then return json.canonical else none

end ObjectQuery.Json
