import ObjectQuery.Value.Numeric

/-!
The operators of expressions and the names of the aggregate functions.
-/

namespace ObjectQuery

/-- The operators with two operands. -/
inductive BinaryOperator where
  | add
  | sub
  | mul
  | div
  | mod
  | eq
  | ne
  | lt
  | le
  | gt
  | ge
  | and
  | or
  | like
  /-- The operators from here on take a type on the right. -/
  | is
  | isNot
  | cast
deriving DecidableEq, Repr

namespace BinaryOperator

def all : List BinaryOperator :=
  [.add, .sub, .mul, .div, .mod, .eq, .ne, .lt, .le, .gt, .ge, .and, .or, .like, .is, .isNot, .cast]

def symbol : BinaryOperator → String
  | .add => "+"
  | .sub => "-"
  | .mul => "*"
  | .div => "/"
  | .mod => "%"
  | .eq => "=="
  | .ne => "!="
  | .lt => "<"
  | .le => "<="
  | .gt => ">"
  | .ge => ">="
  | .and => "&&"
  | .or => "||"
  | .like => "LIKE"
  | .is => "instanceof"
  | .isNot => "!instanceof"
  | .cast => "CAST"

def tag : BinaryOperator → String
  | .add => "Add"
  | .sub => "Sub"
  | .mul => "Mul"
  | .div => "Div"
  | .mod => "Mod"
  | .eq => "Eq"
  | .ne => "Ne"
  | .lt => "Lt"
  | .le => "Le"
  | .gt => "Gt"
  | .ge => "Ge"
  | .and => "And"
  | .or => "Or"
  | .like => "Like"
  | .is => "Is"
  | .isNot => "IsNot"
  | .cast => "Cast"

def ofTag? (tag : String) : Option BinaryOperator := all.find? (·.tag == tag)

/-- Whether an operator compares its operands. -/
def isComparison : BinaryOperator → Bool
  | .eq | .ne | .lt | .le | .gt | .ge => true
  | _ => false

/-- The operation on numbers that an operator stands for. -/
def arithmetic? : BinaryOperator → Option Value.Arithmetic
  | .add => some .add
  | .sub => some .sub
  | .mul => some .mul
  | .div => some .div
  | .mod => some .mod
  | _ => none

end BinaryOperator

/-- The operators with one operand. -/
inductive UnaryOperator where
  | not
  | neg
  /-- Bitwise complement. -/
  | com
  /-- Marks the argument of an aggregate whose values count once each. -/
  | distinct
deriving DecidableEq, Repr

namespace UnaryOperator

def all : List UnaryOperator := [.not, .neg, .com, .distinct]

def symbol : UnaryOperator → String
  | .not => "!"
  | .neg => "-"
  | .com => "~"
  | .distinct => "DISTINCT"

def tag : UnaryOperator → String
  | .not => "Not"
  | .neg => "Neg"
  | .com => "Com"
  | .distinct => "Distinct"

def ofTag? (tag : String) : Option UnaryOperator := all.find? (·.tag == tag)

end UnaryOperator

/-- The functions over a result set. -/
inductive AggregateKind where
  | count
  | sum
  | avg
  | min
  | max
deriving DecidableEq, Repr

namespace AggregateKind

def all : List AggregateKind := [.count, .sum, .avg, .min, .max]

def name : AggregateKind → String
  | .count => "count"
  | .sum => "sum"
  | .avg => "avg"
  | .min => "min"
  | .max => "max"

/-- The aggregate of a name in any case. -/
def ofName? (name : String) : Option AggregateKind := all.find? (·.name == name.toLower)

end AggregateKind

end ObjectQuery
