import ObjectQuery.Method.Call
import ObjectQuery.Pattern.Reader
import ObjectQuery.Text.CaseMapping

/-!
Methods of texts. Positions count characters.
-/

namespace ObjectQuery

/-- The first place where a text occurs in another. -/
def occurrence? (needle : List Char) : List Char → Option Nat
  | [] => if needle.isEmpty then some 0 else none
  | c :: rest =>
    if needle.isPrefixOf (c :: rest) then some 0 else (occurrence? needle rest).map (· + 1)

/-- The characters without those at the end that are the given one. -/
def trimEnd (c : Char) (cs : List Char) : List Char :=
  (cs.reverse.dropWhile (· == c)).reverse

/-- An index as a position, if it is one of a text of this length. -/
def position? (length : Nat) (index : Int) : Option Nat :=
  if 0 ≤ index ∧ index ≤ length then some index.toNat else none

/-- The first place from a position on where a text occurs. -/
def indexFrom? (cs needle : List Char) (start : Int) : Option Nat := do
  let start ← position? cs.length start
  return start + (← occurrence? needle (cs.drop start))

/-- Whether a text matches a pattern as a whole; the pattern must be valid. -/
def matchesWhole (pattern text : String) : Eval Bool :=
  match Pattern.fullMatch? pattern text with
  | some found => return found
  | none => Eval.fail (.invalidPattern pattern)

/-- The methods of texts. -/
inductive TextMethod where
  | trim
  | trimLeft
  | trimRight
  | toUpperCase
  | toLowerCase
  | length
  | substring
  | indexOf
  | startsWith
  | endsWith
  | equals
  | equalsIgnoreCase
  | matches
  | charAt
  | concat
deriving DecidableEq, Repr

namespace TextMethod

def all : List TextMethod :=
  [trim, trimLeft, trimRight, toUpperCase, toLowerCase, length, substring, indexOf, startsWith,
    endsWith, equals, equalsIgnoreCase, TextMethod.matches, charAt, concat]

def name : TextMethod → String
  | trim => "trim"
  | trimLeft => "trimLeft"
  | trimRight => "trimRight"
  | toUpperCase => "toUpperCase"
  | toLowerCase => "toLowerCase"
  | length => "length"
  | substring => "substring"
  | indexOf => "indexOf"
  | startsWith => "startsWith"
  | endsWith => "endsWith"
  | equals => "equals"
  | equalsIgnoreCase => "equalsIgnoreCase"
  | .matches => "matches"
  | charAt => "charAt"
  | concat => "concat"

def arity : TextMethod → Arity
  | trim | trimLeft | trimRight => .between 0 1
  | toUpperCase | toLowerCase | length => .exactly 0
  | substring | indexOf => .between 1 2
  | _ => .exactly 1

/-- The answer for a null receiver: false from a test, null from any other method. -/
def nullDefault : TextMethod → Value
  | startsWith | endsWith | equals | equalsIgnoreCase | .matches => .boolean false
  | _ => .null

/-- The text of a string or of a character. -/
def text? : Value → Option String
  | .string s => some s
  | .char c => some c.toString
  | _ => none

/-- The text of an argument. -/
def text (method : TextMethod) (value : Value) : Eval String :=
  match text? value with
  | some s => return s
  | none => Eval.fail (.invalidOperand method.name "String" value.describeType)

/-- The character to trim, a space if none is given. -/
def trimmed (method : TextMethod) : List Value → Eval Char
  | [] => return ' '
  | value :: _ => do
    let s ← method.text value
    match s.toList with
    | [c] => return c
    | _ => Eval.fail (.invalidOperand method.name "single character" ("\"" ++ s ++ "\""))

/-- Answers with a value. -/
def answer (value : Value) : Eval Operand := return .value value

/-- Answers with a text. -/
def answerText (cs : List Char) : Eval Operand := answer (.string (String.ofList cs))

/-- A count as a value; it wraps beyond 32 bits. -/
def count (n : Nat) : Value := .int (Int32.ofNat n)

/-- Reports an index that is no position of the text. -/
def outOfRange (method : TextMethod) (index : Int) : Eval Operand :=
  Eval.unresolved (.indexOutOfRange method.name index)

/-- The characters from `start` up to `stop`, which have to be positions in this order. -/
def slice (method : TextMethod) (cs : List Char) (start stop : Int) : Eval Operand :=
  match position? cs.length start, position? cs.length stop with
  | none, _ => method.outOfRange start
  | some _, none => method.outOfRange stop
  | some low, some high =>
    if low ≤ high then answerText ((cs.drop low).take (high - low)) else method.outOfRange stop

/-- Compares with another text; a value that is no text differs from every text. -/
def compareWith (test : String → Bool) (other : Value) : Eval Operand :=
  answer (.boolean ((text? other).any test))

/-- Answers a call on a text with the values of the arguments. -/
def apply (method : TextMethod) (call : Call) (s : String) (args : List Value) : Eval Operand := do
  let cs := s.toList
  match method, args with
  | trim, _ =>
    let c ← method.trimmed args
    answerText (trimEnd c (cs.dropWhile (· == c)))
  | trimLeft, _ =>
    let c ← method.trimmed args
    answerText (cs.dropWhile (· == c))
  | trimRight, _ => answerText (trimEnd (← method.trimmed args) cs)
  | toUpperCase, _ => answer (.string (CaseMapping.upper s))
  | toLowerCase, _ => answer (.string (CaseMapping.lower s))
  | length, _ => answer (count cs.length)
  | substring, [start] => method.slice cs (← call.integer start) cs.length
  | substring, start :: stop :: _ => method.slice cs (← call.integer start) (← call.integer stop)
  | indexOf, needle :: rest =>
    let needle ← method.text needle
    let start ← match rest with
      | [] => pure 0
      | start :: _ => call.integer start
    match indexFrom? cs needle.toList (max start 0) with
    | some index => answer (count index)
    | none => answer (.int (-1))
  | startsWith, other :: _ => compareWith (fun t => t.toList.isPrefixOf cs) other
  | endsWith, other :: _ => compareWith (fun t => t.toList.isSuffixOf cs) other
  | equals, other :: _ => compareWith (· == s) other
  | equalsIgnoreCase, other :: _ =>
    compareWith (fun t => CaseMapping.lower s == CaseMapping.lower t) other
  | .matches, .null :: _ => answer (.boolean false)
  | .matches, pattern :: _ =>
    return .ofBool (← matchesWhole (← method.text pattern) s)
  | charAt, index :: _ =>
    let index ← call.integer index
    match if 0 ≤ index then cs[index.toNat]? else none with
    | some c => answer (.char c)
    | none => method.outOfRange index
  | concat, suffix :: _ => answer (.string (s ++ (← method.text suffix)))
  | _, [] => Eval.fail (call.countError method.arity)

/-- Answers a call on a receiver, which must be a string. -/
def evaluate (method : TextMethod) (call : Call) (receiver : Value) : Eval Operand := do
  call.checkCount method.arity
  match receiver.string? with
  | none => Eval.fail (.invalidOperand method.name "String" receiver.describeType)
  | some s =>
    match ← Argument.values call.args with
    | some args => method.apply call s args
    | none => return .unresolved

end TextMethod

end ObjectQuery
