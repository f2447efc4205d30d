import ObjectQuery.Value.Numeric

/-!
The two equalities of values and their order. Strict equality tells kinds apart; loose equality, the
one of the query operators, compares numbers by value, a character with a text of one character, and
the members of containers by its own rules.
-/

namespace ObjectQuery.Value

mutual

/-- Equality within one kind. Decimals compare by value, not-a-number differs from itself. One
object equals itself; two objects are equal if both are managed and agree in type and identity. -/
def strictEq : Value → Value → Bool
  | null, null => true
  | boolean a, boolean b => a == b
  | char a, char b => a == b
  | byte a, byte b => a == b
  | short a, short b => a == b
  | int a, int b => a == b
  | long a, long b => a == b
  | bigInteger a, bigInteger b => a == b
  | float a, float b => a.beq b
  | double a, double b => a.beq b
  | decimal a, decimal b => a.beq b
  | string a, string b => a == b
  | array a, array b => strictEqList a b
  | list a, list b => strictEqList a b
  | set a, set b => strictEqList a b
  | map a, map b => strictEqEntries a b
  | object id typeName _ identity, object id' typeName' _ identity' =>
    id == id' || (typeName == typeName' && strictEqIdentity identity identity')
  | type a, type b => a == b
  | _, _ => false
termination_by structural left => left

/-- Strict equality of lists, position by position. -/
def strictEqList : List Value → List Value → Bool
  | [], [] => true
  | a :: as, b :: bs => strictEq a b && strictEqList as bs
  | _, _ => false
termination_by structural left => left

def strictEqEntries : List (Value × Value) → List (Value × Value) → Bool
  | [], [] => true
  | (k, v) :: rest, (k', v') :: rest' =>
    strictEq k k' && strictEq v v' && strictEqEntries rest rest'
  | _, _ => false
termination_by structural left => left

/-- Only present identities can be equal. -/
def strictEqIdentity : Option Value → Option Value → Bool
  | some a, some b => strictEq a b
  | _, _ => false
termination_by structural left => left

end

/-- Whether a text is a single character. -/
def isCharText (c : Char) (s : String) : Bool := s.toList == [c]

mutual

/-- Equality of the query operators. Arrays and lists are alike; sets and maps of one size are equal
if each member on the left has an equal one on the right. -/
def looseEq : Value → Value → Bool
  | null, right => right.isNull
  | array a, right =>
    match right with
    | array b | list b => a.length == b.length && looseEqList a b
    | _ => false
  | list a, right =>
    match right with
    | array b | list b => a.length == b.length && looseEqList a b
    | _ => false
  | set a, right =>
    match right with
    | set b => a.length == b.length && looseSubset a b
    | _ => false
  | map a, right =>
    match right with
    | map b => a.length == b.length && looseSubmap a b
    | _ => false
  | char c, string s => isCharText c s
  | string s, char c => isCharText c s
  | left, right =>
    if left.isNumeric && right.isNumeric then compareNumbers? left right == some .eq
    else strictEq left right
termination_by structural left => left

/-- Loose equality of lists, position by position. -/
def looseEqList : List Value → List Value → Bool
  | [], [] => true
  | a :: as, b :: bs => looseEq a b && looseEqList as bs
  | _, _ => false
termination_by structural left => left

/-- Whether each element of the first list is loosely equal to one of the second. -/
def looseSubset : List Value → List Value → Bool
  | [], _ => true
  | a :: as, bs => bs.any (fun b => looseEq a b) && looseSubset as bs
termination_by structural left => left

/-- Whether each entry of the first map is loosely equal to one of the second. -/
def looseSubmap : List (Value × Value) → List (Value × Value) → Bool
  | [], _ => true
  | (k, v) :: rest, entries =>
    entries.any (fun entry => looseEq k entry.1 && looseEq v entry.2) && looseSubmap rest entries
termination_by structural left => left

end

/-- The order of two values that have one: numbers, texts and characters, booleans. -/
def compare? (left right : Value) : Option Ordering :=
  match left, right with
  | string a, string b => some (compare a b)
  | char a, char b => some (compare a b)
  | char a, string b => some (compare a.toString b)
  | string a, char b => some (compare a b.toString)
  | boolean a, boolean b => some (compare a b)
  | left, right => if left.isNumeric && right.isNumeric then compareNumbers? left right else none

end ObjectQuery.Value
