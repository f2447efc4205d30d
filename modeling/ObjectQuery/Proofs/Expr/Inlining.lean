import ObjectQuery.Proofs.Expr.Tree
import ObjectQuery.Evaluation

/-!
Inlining: a literal in place of a parameter, and what of an expression's shape stays as it was.
-/

namespace ObjectQuery.Expr

variable (name : String) (value : Value)

mutual

/-- The expression with a value in place of a parameter, wherever that stands. -/
@[grind =]
def inline : Expr → Expr
  | literal kept => literal kept
  | parameter other => if other = name then literal value else parameter other
  | var other => var other
  | path qualifier segments => path (inlineOption qualifier) segments
  | binary op left right => binary op (inline left) (inline right)
  | unary op operand => unary op (inline operand)
  | invoke receiver method args declared =>
    invoke (inlineOption receiver) method (inlineList args) declared
  | creator typeName args => creator typeName (inlineList args)
  | conditional branches otherwise =>
    conditional (inlineBranches branches) (inlineOption otherwise)
  | array elements => array (inlineList elements)
termination_by structural e => e

def inlineOption : Option Expr → Option Expr
  | none => none
  | some e => some (inline e)
termination_by structural e => e

def inlineList : List Expr → List Expr
  | [] => []
  | e :: rest => inline e :: inlineList rest
termination_by structural es => es

def inlineBranches : List (Expr × Expr) → List (Expr × Expr)
  | [] => []
  | (condition, result) :: rest => (inline condition, inline result) :: inlineBranches rest
termination_by structural branches => branches

end

theorem inlineOption_eq_map (e : Option Expr) :
    inlineOption name value e = e.map (inline name value) := by
  cases e <;> rfl

theorem inlineList_eq_map (es : List Expr) :
    inlineList name value es = es.map (inline name value) := by
  induction es with
  | nil => rfl
  | cons e rest ih => rw [inlineList, ih, List.map_cons]

theorem inlineBranches_eq_map (branches : List (Expr × Expr)) :
    inlineBranches name value branches =
      branches.map fun branch => (inline name value branch.1, inline name value branch.2) := by
  induction branches with
  | nil => rfl
  | cons branch rest ih => rw [inlineBranches, ih, List.map_cons]

/-! ### Shapes -/

theorem kindName_inline {e : Expr} (h : e ≠ parameter name) :
    (inline name value e).kindName = e.kindName := by
  cases e with
  | parameter other =>
    rw [inline, if_neg fun heq => h (congrArg parameter heq)]
  | _ => rfl

@[simp] theorem variableName?_inline (e : Expr) :
    (inline name value e).variableName? = e.variableName? := by
  cases e with
  | parameter other =>
    rw [inline]
    split <;> rfl
  | _ => rfl

@[simp] theorem isDistinct_inline (e : Expr) : (inline name value e).isDistinct = e.isDistinct := by
  cases e with
  | parameter other =>
    rw [inline]
    split <;> rfl
  | unary op operand => cases op <;> rfl
  | _ => rfl

@[simp] theorem isArrayElement_inline (e : Expr) :
    (inline name value e).isArrayElement = e.isArrayElement := by
  cases e with
  | parameter other =>
    rw [inline]
    split <;> rfl
  | _ => rfl

@[simp] theorem isPath_inline (e : Expr) : (inline name value e).isPath = e.isPath := by
  cases e with
  | parameter other =>
    rw [inline]
    split <;> rfl
  | _ => rfl

@[simp] theorem isNegatable_inline (e : Expr) :
    (inline name value e).isNegatable = e.isNegatable := by
  induction e using induction_children with
  | step e ih =>
    cases e with
    | parameter other =>
      rw [inline]
      split <;> rfl
    | unary op operand =>
      have hoperand := ih operand (by simp [children])
      cases op with
      | neg => rw [inline, isNegatable, isNegatable, hoperand]
      | _ => rfl
    | _ => rfl

end ObjectQuery.Expr
