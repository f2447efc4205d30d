import ObjectQuery.Proofs.Evaluation.Operands
import ObjectQuery.Proofs.Value.Comparability

/-!
The comparisons of two operands. Main statement: the six of them fit together. Of operands that have
an order exactly one of less, equal and greater is true, and the other comparisons follow from
these; for operands without one the comparisons of order cannot be resolved, whichever operand
stands first.
-/

namespace ObjectQuery

/-! ### Comparisons of values -/

namespace BinaryOperator

variable {op : BinaryOperator} {a b : Value} {order : Ordering}

/-- Whether a comparison is true of operands in the order. -/
def admits (op : BinaryOperator) (order : Ordering) : Bool :=
  match op with
  | .eq => order == .eq
  | .ne => order != .eq
  | op => op.holdsFor order

/-- The comparisons that need an order. -/
def orderings : List BinaryOperator := [.lt, .le, .gt, .ge]

theorem isComparison_of_mem_orderings (h : op ∈ orderings) : op.isComparison := by
  cases op <;> first | rfl | simp [orderings] at h

theorem compareValues_of_compare? (hop : op.isComparison) (h : a.compare? b = some order) :
    op.compareValues a b = .ofBool (op.admits order) := by
  have hswap : b.compare? a = some order.swap := Value.precedes_swap.mpr h
  have ha : a.isNull = false := Value.isNull_of_compare? h
  have hb : b.isNull = false := Value.isNull_of_compare? hswap
  cases op with
  | eq => rw [compareValues, Value.looseEq_eq_of_compare? h]; rfl
  | ne => rw [compareValues, Value.looseEq_eq_of_compare? h]; rfl
  | lt | le | gt | ge =>
    simp only [compareValues, ha, hb, h]
    rfl
  | _ => cases hop

theorem compareValues_of_compare?_eq_none (hop : op ∈ orderings) (h : a.compare? b = none) :
    op.compareValues a b = .unresolved := by
  cases op with
  | lt | le | gt | ge =>
    simp only [compareValues, h]
    split <;> rfl
  | _ => simp [orderings] at hop

end BinaryOperator

/-! ### Comparisons of operands -/

namespace Expr

variable {env : Environment} {context : Context} {left right : Expr} {a b : Value}
  {order : Ordering}

/-- The comparisons of two operands are truth values that fit together. -/
structure Ordered (env : Environment) (context : Context) (left right : Expr)
    (truth : BinaryOperator → Bool) : Prop where
  evaluates : ∀ op : BinaryOperator, op.isComparison →
    (binary op left right).Evaluates env context (.ofBool (truth op))
  exactlyOne : [truth .lt, truth .eq, truth .gt].count true = 1
  le : truth .le = (truth .lt || truth .eq)
  ge : (binary .le right left).Evaluates env context (.ofBool (truth .ge))
  ne : truth .ne = !truth .eq

/-- No comparison of order between two operands can be resolved. -/
def Unordered (env : Environment) (context : Context) (left right : Expr) : Prop :=
  ∀ op ∈ BinaryOperator.orderings, (binary op left right).Evaluates env context .unresolved ∧
    (binary op right left).Evaluates env context .unresolved

theorem ordered_of_compare? (hleft : left.Evaluates env context (.value a))
    (hright : right.Evaluates env context (.value b)) (h : a.compare? b = some order) :
    Ordered env context left right fun op => op.admits order where
  evaluates op hop := by
    rw [← BinaryOperator.compareValues_of_compare? hop h]
    exact .comparison hop hleft hright
  exactlyOne := by cases order <;> rfl
  le := by cases order <;> rfl
  ge := by
    have hswap : b.compare? a = some order.swap := Value.precedes_swap.mpr h
    have hle : BinaryOperator.compareValues .le b a =
      .ofBool (BinaryOperator.admits .ge order) := by
      rw [BinaryOperator.compareValues_of_compare? rfl hswap]
      cases order <;> rfl
    rw [← hle]
    exact .comparison rfl hright hleft
  ne := rfl

theorem unordered_of_compare? (hleft : left.Evaluates env context (.value a))
    (hright : right.Evaluates env context (.value b)) (h : a.compare? b = none) :
    Unordered env context left right := by
  have hswap : b.compare? a = none := by
    rw [Value.compare?_swap a b, h]
    rfl
  intro op hop
  have hcomparison := BinaryOperator.isComparison_of_mem_orderings hop
  have hab := Evaluates.comparison hcomparison hleft hright
  have hba := Evaluates.comparison hcomparison hright hleft
  rw [BinaryOperator.compareValues_of_compare?_eq_none hop h] at hab
  rw [BinaryOperator.compareValues_of_compare?_eq_none hop hswap] at hba
  exact ⟨hab, hba⟩

/-- Two values compare in one order as the reverse of how they compare in the other. Between
operands that have them for values the comparisons fit together if the values have an order, and
otherwise those of order cannot be resolved. -/
theorem comparisons_coherent (a b : Value) :
    b.compare? a = (a.compare? b).map Ordering.swap ∧
    ∀ (env : Environment) (context : Context) (left right : Expr),
      left.Evaluates env context (.value a) → right.Evaluates env context (.value b) →
        ((a.compare? b).isSome → ∃ truth, Ordered env context left right truth) ∧
        (a.compare? b = none → Unordered env context left right) := by
  refine ⟨Value.compare?_swap a b, fun env context left right hleft hright => ⟨fun h => ?_, ?_⟩⟩
  · obtain ⟨order, horder⟩ := Option.isSome_iff_exists.mp h
    exact ⟨_, ordered_of_compare? hleft hright horder⟩
  · exact unordered_of_compare? hleft hright

/-- A letter beside a text, and beside a number. -/
theorem comparisons_coherent_letter :
    let env : Environment := ⟨.empty, .empty, .detached⟩
    let context : Context := ⟨"this", [("limit", .string "ab")], [], [("letter", .char 'a')], none⟩
    (var "letter").Evaluates env context (.value (.char 'a')) ∧
      (parameter "limit").Evaluates env context (.value (.string "ab")) ∧
      (literal (.int 1)).Evaluates env context (.value (.int 1)) ∧
      ((Value.char 'a').compare? (.string "ab")).isSome ∧
      (Value.char 'a').compare? (.int 1) = none ∧
      (∃ truth, Ordered env context (var "letter") (parameter "limit") truth) ∧
      Unordered env context (var "letter") (literal (.int 1)) := by
  intro env context
  have hletter : (var "letter").Evaluates env context (.value (.char 'a')) := evaluates_var rfl
  have hlimit : (parameter "limit").Evaluates env context (.value (.string "ab")) :=
    evaluates_parameter "limit"
  have hone : (literal (.int 1)).Evaluates env context (.value (.int 1)) := evaluates_literal _
  have hordered :=
    (comparisons_coherent (.char 'a') (.string "ab")).2 env context _ _ hletter hlimit
  have hunordered := (comparisons_coherent (.char 'a') (.int 1)).2 env context _ _ hletter hone
  exact ⟨hletter, hlimit, hone, rfl, rfl, hordered.1 rfl, hunordered.2 rfl⟩

end Expr

end ObjectQuery
