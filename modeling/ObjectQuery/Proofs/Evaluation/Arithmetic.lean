import ObjectQuery.Proofs.Evaluation.Operands
import ObjectQuery.Proofs.Number.Remainder
import ObjectQuery.Proofs.Value.Comparison

/-!
Arithmetic of integers and decimals. Main statement: sums and differences are exact, products are if
there are scales for them, and a remainder is that of truncated division, whatever the widths and
scales of the operands; only a remainder by zero has no result. So operands that are equal give
results that are equal.
-/

namespace ObjectQuery

namespace Value

variable {a b : Value} {x y : ℚ}

/-! ### Exact numbers -/

/-- The number that an integer or a decimal is. -/
def exactNumber? : Value → Option ℚ
  | byte n => some n.toInt
  | short n => some n.toInt
  | int n => some n.toInt
  | long n => some n.toInt
  | bigInteger n => some n
  | decimal d => some d.toRat
  | _ => none

theorem exists_exactNumber? (h : a.IsExact) : ∃ x, a.exactNumber? = some x := by
  obtain ⟨hnumeric, hbinary⟩ := h
  cases a with
  | float | double => cases hbinary
  | _ => first | exact ⟨_, rfl⟩ | cases hnumeric

theorem isExact_of_exactNumber? (h : a.exactNumber? = some x) : a.IsExact := by
  cases a <;> first | exact ⟨rfl, rfl⟩ | cases h

theorem toDecimal?_of_exactNumber? (h : a.exactNumber? = some x) :
    ∃ d, a.toDecimal? = some d ∧ d.toRat = x := by
  cases a with
  | byte n | short n | int n | long n | bigInteger n =>
    obtain rfl := Option.some.inj h
    exact ⟨_, rfl, Decimal.toRat_ofInt _⟩
  | decimal d => exact ⟨d, rfl, Option.some.inj h⟩
  | _ => cases h

theorem finiteDecimal_of_exactNumber? (h : a.exactNumber? = some x) :
    ∃ d, finiteDecimal a = .ok d ∧ d.toRat = x := by
  obtain ⟨d, hd, hx⟩ := toDecimal?_of_exactNumber? h
  exact ⟨d, by rw [finiteDecimal, hd], hx⟩

theorem looseEq_iff_of_exactNumber? (ha : a.exactNumber? = some x) (hb : b.exactNumber? = some y) :
    a.looseEq b ↔ x = y := by
  have hleft := isExact_of_exactNumber? ha
  have hright := isExact_of_exactNumber? hb
  obtain ⟨d, hd, rfl⟩ := toDecimal?_of_exactNumber? ha
  obtain ⟨e, he, rfl⟩ := toDecimal?_of_exactNumber? hb
  rw [looseEq_eq_compareNumbers? hleft.1 hright.1, compareNumbers?_eq_decimals (.inl hleft.2),
    hd, he, ← Decimal.beq_iff]
  rfl

/-! ### Scales -/

/-- There is a scale for the product of two numbers. -/
def ProductFits (a b : Value) : Prop :=
  ∀ d e, a.toDecimal? = some d → b.toDecimal? = some e → Decimal.scaleFits (d.product e).scale

theorem scaleFits_of_toDecimal? {d : Decimal} (hfits : a.ScaleFits) (hd : a.toDecimal? = some d) :
    Decimal.scaleFits d.scale := by
  cases a with
  | byte | short | int | long | bigInteger =>
    obtain rfl := Option.some.inj hd
    rfl
  | float x =>
    exact Decimal.scaleFits_of_ofBinary? BinaryFormat.single_searchable (by decide) hd
  | double x =>
    exact Decimal.scaleFits_of_ofBinary? BinaryFormat.double_searchable (by decide) hd
  | decimal e =>
    obtain rfl := Option.some.inj hd
    exact hfits
  | _ => cases hd

theorem scaleFits_of_finiteDecimal {d : Decimal} (hfits : a.ScaleFits)
    (hd : finiteDecimal a = .ok d) : Decimal.scaleFits d.scale := by
  cases h : a.toDecimal? with
  | none =>
    rw [finiteDecimal, h] at hd
    cases hd
  | some e =>
    rw [finiteDecimal, h] at hd
    obtain rfl := Except.ok.inj hd
    exact scaleFits_of_toDecimal? hfits h

theorem productFits_of_isIntegral (hafits : a.ScaleFits) (hbfits : b.ScaleFits)
    (h : a.isIntegral ∨ b.isIntegral) : a.ProductFits b := by
  intro d e hd he
  have hscale : ∀ {value : Value} {d : Decimal}, value.isIntegral → value.toDecimal? = some d →
      d.scale = 0 := by
    intro value d hintegral hd
    cases value with
    | byte | short | int | long | bigInteger => exact (Option.some.inj hd) ▸ rfl
    | _ => cases hintegral
  have hdfits := scaleFits_of_toDecimal? hafits hd
  have hefits := scaleFits_of_toDecimal? hbfits he
  rw [Decimal.product]
  split
  · exact hefits
  split
  · exact hdfits
  rcases h with h | h
  · simpa [hscale h hd] using hefits
  · simpa [hscale h he] using hdfits

/-- No operation leads out of the scales that numbers are read with. -/
theorem scaleFits_of_applyArithmetic {op : Arithmetic} {result : Value} (ha : a.ScaleFits)
    (hb : b.ScaleFits) (h : applyArithmetic op a b = .ok result) : result.ScaleFits := by
  cases op with
  | add =>
    obtain ⟨d, hd, h⟩ := Except.bind_eq_ok.mp h
    obtain ⟨e, he, h⟩ := Except.bind_eq_ok.mp h
    obtain rfl := Except.ok.inj h
    exact Decimal.scaleFits_max (scaleFits_of_finiteDecimal ha hd) (scaleFits_of_finiteDecimal hb he)
  | sub =>
    obtain ⟨d, hd, h⟩ := Except.bind_eq_ok.mp h
    obtain ⟨e, he, h⟩ := Except.bind_eq_ok.mp h
    obtain rfl := Except.ok.inj h
    exact Decimal.scaleFits_sub (scaleFits_of_finiteDecimal ha hd) (scaleFits_of_finiteDecimal hb he)
  | mul =>
    obtain ⟨d, -, h⟩ := Except.bind_eq_ok.mp h
    obtain ⟨e, -, h⟩ := Except.bind_eq_ok.mp h
    obtain rfl := Except.ok.inj h
    exact Decimal.scaleFits_wrapped _
  | div =>
    obtain ⟨x, -, h⟩ := Except.bind_eq_ok.mp h
    obtain ⟨y, -, h⟩ := Except.bind_eq_ok.mp h
    dsimp only at h
    split at h
    · cases h
    split at h
    · rename_i d hd
      obtain rfl := Except.ok.inj h
      exact Decimal.scaleFits_of_ofBinary? BinaryFormat.double_searchable (by decide) hd
    · cases h
  | mod =>
    obtain ⟨d, hd, h⟩ := Except.bind_eq_ok.mp h
    obtain ⟨e, he, h⟩ := Except.bind_eq_ok.mp h
    dsimp only at h
    split at h
    · cases h
    · obtain rfl := Except.ok.inj h
      exact Decimal.scaleFits_max (scaleFits_of_finiteDecimal ha hd)
        (scaleFits_of_finiteDecimal hb he)

/-! ### Results -/

/-- The result is a decimal, and the number that it is. -/
def Gives (result : Except ArithmeticFault Value) (x : ℚ) : Prop :=
  ∃ d, result = .ok (decimal d) ∧ d.toRat = x

/-- Two values that are equal, or one fault. -/
def SameResult : Except ArithmeticFault Value → Except ArithmeticFault Value → Prop
  | .ok a, .ok b => a.strictEq b
  | .error fault, .error fault' => fault = fault'
  | _, _ => False

theorem Gives.sameResult {result result' : Except ArithmeticFault Value} (h : Gives result x)
    (h' : Gives result' x) : SameResult result result' := by
  obtain ⟨d, rfl, rfl⟩ := h
  obtain ⟨e, rfl, he⟩ := h'
  exact Decimal.beq_iff.mpr he.symm

theorem gives_sum (ha : a.exactNumber? = some x) (hb : b.exactNumber? = some y) :
    Gives (applyArithmetic .add a b) (x + y) := by
  obtain ⟨d, hd, rfl⟩ := finiteDecimal_of_exactNumber? ha
  obtain ⟨e, he, rfl⟩ := finiteDecimal_of_exactNumber? hb
  exact ⟨d.add e, by rw [applyArithmetic, hd, he]; rfl, Decimal.toRat_add d e⟩

theorem gives_difference (ha : a.exactNumber? = some x) (hb : b.exactNumber? = some y) :
    Gives (applyArithmetic .sub a b) (x - y) := by
  obtain ⟨d, hd, rfl⟩ := toDecimal?_of_exactNumber? ha
  obtain ⟨e, he, rfl⟩ := toDecimal?_of_exactNumber? hb
  exact ⟨d.sub e, applyArithmetic_sub hd he, Decimal.toRat_sub d e⟩

theorem gives_product_iff (ha : a.exactNumber? = some x) (hb : b.exactNumber? = some y) :
    Gives (applyArithmetic .mul a b) (x * y) ↔ a.ProductFits b ∨ x * y = 0 := by
  obtain ⟨d, hd, rfl⟩ := toDecimal?_of_exactNumber? ha
  obtain ⟨e, he, rfl⟩ := toDecimal?_of_exactNumber? hb
  have hproduct : applyArithmetic .mul a b = .ok (decimal (d.mul e)) := by
    rw [applyArithmetic, finiteDecimal, finiteDecimal, hd, he]
    rfl
  have hfits : a.ProductFits b ↔ Decimal.scaleFits (d.product e).scale := by
    simp [ProductFits, hd, he]
  rw [hfits, ← Decimal.toRat_mul_eq_iff, hproduct]
  constructor
  · rintro ⟨f, hf, hx⟩
    injection hf with hf
    injection hf with hf
    rwa [hf]
  · exact fun h => ⟨d.mul e, rfl, h⟩

theorem divisionByZero_of_zero (ha : a.exactNumber? = some x) (hb : b.exactNumber? = some 0) :
    applyArithmetic .mod a b = .error .divisionByZero := by
  obtain ⟨d, hd, -⟩ := finiteDecimal_of_exactNumber? ha
  obtain ⟨e, he, hzero⟩ := finiteDecimal_of_exactNumber? hb
  rw [applyArithmetic, hd, he]
  simp only [Bind.bind, Except.bind, Decimal.isZero_iff.mpr hzero]
  rfl

theorem gives_remainder (ha : a.exactNumber? = some x) (hb : b.exactNumber? = some y) (hy : y ≠ 0) :
    ∃ m, Gives (applyArithmetic .mod a b) m ∧ IsRemainder x y m := by
  obtain ⟨d, hd, rfl⟩ := finiteDecimal_of_exactNumber? ha
  obtain ⟨e, he, rfl⟩ := finiteDecimal_of_exactNumber? hb
  have hnonzero : e.isZero = false := by
    rw [← Bool.not_eq_true, Decimal.isZero_iff]
    exact hy
  refine ⟨_, ⟨d.rem e, ?_, rfl⟩, Decimal.isRemainder_rem d hnonzero⟩
  rw [applyArithmetic, hd, he]
  simp only [Bind.bind, Except.bind, hnonzero]
  rfl

theorem sameResult_of_looseEq {a' b' : Value} {op : Arithmetic} (hop : op ≠ .div) (ha : a.IsExact)
    (hb : b.IsExact) (ha' : a'.IsExact) (hb' : b'.IsExact) (haa' : a.looseEq a')
    (hbb' : b.looseEq b') (hfits : op = .mul → a.ProductFits b ∧ a'.ProductFits b') :
    SameResult (applyArithmetic op a b) (applyArithmetic op a' b') := by
  obtain ⟨x, hx⟩ := exists_exactNumber? ha
  obtain ⟨y, hy⟩ := exists_exactNumber? hb
  obtain ⟨x', hx'⟩ := exists_exactNumber? ha'
  obtain ⟨y', hy'⟩ := exists_exactNumber? hb'
  obtain rfl := (looseEq_iff_of_exactNumber? hx hx').mp haa'
  obtain rfl := (looseEq_iff_of_exactNumber? hy hy').mp hbb'
  cases op with
  | add => exact (gives_sum hx hy).sameResult (gives_sum hx' hy')
  | sub => exact (gives_difference hx hy).sameResult (gives_difference hx' hy')
  | mul =>
    obtain ⟨hfits, hfits'⟩ := hfits rfl
    exact ((gives_product_iff hx hy).mpr (.inl hfits)).sameResult
      ((gives_product_iff hx' hy').mpr (.inl hfits'))
  | div => exact absurd rfl hop
  | mod =>
    by_cases hzero : y = 0
    · subst hzero
      rw [divisionByZero_of_zero hx hy, divisionByZero_of_zero hx' hy']
      rfl
    · obtain ⟨m, hm, hremainder⟩ := gives_remainder hx hy hzero
      obtain ⟨m', hm', hremainder'⟩ := gives_remainder hx' hy' hzero
      obtain rfl := hremainder.unique hremainder'
      exact hm.sameResult hm'

end Value

/-! ### Operators -/

/-- What an arithmetic operator makes of a result; a fault is reported and leaves nothing. -/
def Operand.ofArithmetic : Except Value.ArithmeticFault Value → Operand
  | .ok a => .value a
  | .error _ => .unresolved

theorem BinaryOperator.compute_settles (op : BinaryOperator) {arithmetic : Value.Arithmetic}
    {a b : Value} (ha : a.isNumeric) (hb : b.isNumeric) (context : Context) (supply : InstanceId) :
    ∃ trace, Settles (op.compute arithmetic a b) context supply
      ⟨.ok (.ofArithmetic (Value.applyArithmetic arithmetic a b)), context, trace, supply⟩ := by
  have hstring : ∀ {value : Value}, value.isNumeric → isString value = false := by
    intro value h
    cases value <;> first | rfl | cases h
  simp only [compute, Value.isNull_of_isNumeric ha, Value.isNull_of_isNumeric hb, hstring ha,
    hstring hb, ha, hb, Bool.or_self, Bool.and_false, Bool.not_true, Bool.false_eq_true, if_false]
  cases Value.applyArithmetic arithmetic a b with
  | ok value => exact ⟨_, .pure (Operand.value value)⟩
  | error fault => exact ⟨_, (Settles.warn (op.faultWarning fault)).bind (.pure Operand.unresolved)⟩

theorem Expr.Evaluates.arithmetic {env : Environment} {context : Context} {left right : Expr}
    {op : BinaryOperator} {operation : Value.Arithmetic} {a b : Value}
    (hop : op.arithmetic? = some operation) (hleft : left.Evaluates env context (.value a))
    (hright : right.Evaluates env context (.value b)) (ha : a.isNumeric) (hb : b.isNumeric) :
    (Expr.binary op left right).Evaluates env context
      (.ofArithmetic (Value.applyArithmetic operation a b)) := by
  refine .binary (BinaryOperator.evaluatesBoth_of_arithmetic? hop) hleft hright fun supply => ?_
  obtain ⟨trace, h⟩ := op.compute_settles ha hb context supply
  have happly : op.apply (.value a) (.value b) = op.compute operation a b := by
    cases op <;> first | (cases hop; rfl) | cases hop
  exact ⟨trace, supply, by rw [happly]; exact h⟩

namespace Value

end Value

end ObjectQuery
