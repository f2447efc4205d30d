import ObjectQuery.Proofs.Evaluation.Counting
import ObjectQuery.Proofs.Method.Numeric
import ObjectQuery.Proofs.Number.DecimalTruncation

/-!
Conversions of decimals to integers. Main statement: the methods and the complement of a decimal
take one integer for it. This is its integer part only if the digits that take part keep it as a
double, or if it is the greatest integer of 64 bits; so it is for all decimals of few digits, but
not for all whose integer part has 64 bits.
-/

namespace ObjectQuery

namespace Expr

variable {env : Environment} {context : Context} {e : Expr} {d : Decimal} {m n : ℤ}

/-- The methods and the complement take an expression for an integer; where there are fewer bits,
the last ones stay. -/
structure ConvertsTo (env : Environment) (context : Context) (e : Expr) (n : ℤ) : Prop where
  longValue : (callMethod e NumberMethod.longValue.name []).Evaluates env context
    (.value (.long (.ofInt n)))
  intValue : (callMethod e NumberMethod.intValue.name []).Evaluates env context
    (.value (.int (.ofInt n)))
  complement : e.isPath →
    (unary .com e).Evaluates env context (.value (.long (.ofInt (-n - 1))))

theorem ConvertsTo.unique (h : e.ConvertsTo env context m) (h' : e.ConvertsTo env context n)
    (hm : Value.fitsInt64 m) (hn : Value.fitsInt64 n) : m = n := by
  rw [fitsInt64_iff] at hm hn
  have hlong : Int64.ofInt m = Int64.ofInt n := by
    have heq := h.longValue.unique h'.longValue
    injection heq with hvalue
    injection hvalue
  have hinteger := congrArg Int64.toInt hlong
  rwa [Int64.toInt_ofInt_of_le hm.1 hm.2, Int64.toInt_ofInt_of_le hn.1 hn.2] at hinteger

theorem fitsInt64_toInt (n : Int64) : Value.fitsInt64 n.toInt :=
  (fitsInt64_iff _).mpr ⟨n.le_toInt, n.toInt_lt⟩

section Decimals

variable (hregistry : env.registry = .builtin)
  (hclass : env.catalog.classes.get? DataType.bigDecimal.name = none)
  (h : e.Evaluates env context (.value (.decimal d)))

include hregistry hclass h

theorem convertsTo_toDouble : e.ConvertsTo env context d.toDouble.toInt64.toInt := by
  have hmethod : ∀ method : NumberMethod, (callMethod e method.name []).Evaluates env context
      (.value (method.convert (.decimal d) d.toDouble)) := by
    intro method
    have htype : (Value.decimal d).typeName? = some DataType.bigDecimal.name := rfl
    refine h.numberMethod htype ?_ rfl
    rw [hregistry]
    exact Registry.method?_of_isNumeric env.catalog rfl htype hclass method
  refine ⟨?_, ?_, fun hpath => ?_⟩
  · rw [Int64.ofInt_toInt]
    exact hmethod .longValue
  · rw [← Int64.toInt32_ofInt, Int64.ofInt_toInt]
    exact hmethod .intValue
  · have hshape : UnaryOperator.com.checkShape e = .ok () := if_pos hpath
    have hnot : Int64.ofInt (-d.toDouble.toInt64.toInt - 1) = ~~~d.toDouble.toInt64 := by
      rw [Int64.ofInt_sub, Int64.ofInt_neg, Int64.ofInt_toInt, Int64.not_eq_neg_sub]
      rfl
    rw [hnot]
    exact h.unary hshape rfl

end Decimals

/-- A context with this candidate and nothing else. -/
def candidateContext (value : Value) : Context := ⟨"this", [], [("this", value)], [], none⟩

/-- The candidate as an expression. -/
def candidate : Expr := path none ["this"]

theorem evaluates_candidate (env : Environment) {context : Context} {value : Value}
    (h : Environment.pathRoot context ["this"] = (some value, [])) :
    candidate.Evaluates env context (.value value) := by
  refine fun supply => ⟨.empty, supply, ?_⟩
  rw [candidate, result, Environment.path]
  refine .readContext ?_
  rw [h]
  cases value <;> exact .pure _

end Expr

end ObjectQuery
