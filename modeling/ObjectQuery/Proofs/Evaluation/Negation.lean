import ObjectQuery.Proofs.Evaluation.Arithmetic
import ObjectQuery.Proofs.Evaluation.Total
import ObjectQuery.Proofs.Method.Numeric
import ObjectQuery.Proofs.Value.Comparability

/-!
Opposites and absolute values. Main statement: the opposite of a finite number equals its difference
from zero, and its absolute value equals the number or that difference, which are decimals.
Opposites are kept in the kind of the number, so the least number of a bounded kind has none: it is
its own opposite and its own absolute value.
-/

namespace ObjectQuery

/-! ### Binary numbers -/

namespace Binary

variable {f : BinaryFormat} {x : Binary f} {r : ℚ}

theorem toRat_neg (h : (Decimal.ofBinary? x).map Decimal.toRat = some r) :
    (Decimal.ofBinary? x.neg).map Decimal.toRat = some (-r) := by
  cases x with
  | nan | infinite => cases h
  | finite negative units fits =>
    obtain ⟨d, hd, rfl⟩ := Option.map_eq_some_iff.mp h
    obtain ⟨e, he⟩ : ∃ e, Decimal.ofBinary? (.finite (!negative) units fits) = some e := ⟨_, rfl⟩
    rw [neg, he, Decimal.toRat_ofBinary? hd, Option.map_some, Decimal.toRat_ofBinary? he]
    cases negative <;> simp

theorem toRat_abs (hf : f.Searchable) (h : (Decimal.ofBinary? x).map Decimal.toRat = some r) :
    (Decimal.ofBinary? x.abs).map Decimal.toRat = some |r| := by
  cases x with
  | nan | infinite => cases h
  | finite negative units fits =>
    obtain ⟨d, hd, rfl⟩ := Option.map_eq_some_iff.mp h
    obtain ⟨e, he⟩ : ∃ e, Decimal.ofBinary? (.finite false units fits) = some e := ⟨_, rfl⟩
    have hnonneg := BinaryFormat.shortestValue_nonneg hf fits
    rw [abs, he, Decimal.toRat_ofBinary? hd, Option.map_some, Decimal.toRat_ofBinary? he]
    cases negative <;> simp [abs_of_nonneg hnonneg]

end Binary

namespace Value

variable {a b v : Value} {x y : ℚ} {n : ℤ}

/-! ### Numbers of any kinds -/

theorem isNumeric_of_rational? (h : v.rational? = some x) : v.isNumeric := by
  cases v <;> first | rfl | cases h

theorem compareNumbers?_of_rational? (hmixed : mixed a b = false) (ha : a.rational? = some x)
    (hb : b.rational? = some y) : a.compareNumbers? b = some (compare x y) := by
  obtain ⟨d, hd, rfl⟩ := Option.map_eq_some_iff.mp ha
  obtain ⟨e, he, rfl⟩ := Option.map_eq_some_iff.mp hb
  rw [compareNumbers?_eq_compare hmixed hd he, Decimal.compare_eq_toRat]

theorem compare?_of_rational? (hmixed : mixed a b = false) (ha : a.rational? = some x)
    (hb : b.rational? = some y) : a.compare? b = some (compare x y) := by
  rw [compare?_of_isNumeric (isNumeric_of_rational? ha) (isNumeric_of_rational? hb),
    compareNumbers?_of_rational? hmixed ha hb]

theorem looseEq_iff_of_rational? (hmixed : mixed a b = false) (ha : a.rational? = some x)
    (hb : b.rational? = some y) : a.looseEq b ↔ x = y := by
  rw [looseEq_eq_compareNumbers? (isNumeric_of_rational? ha) (isNumeric_of_rational? hb),
    compareNumbers?_of_rational? hmixed ha hb, beq_iff_eq, Option.some_inj, compare_eq_iff_eq]

theorem isFinite_of_isExact (h : v.IsExact) : v.IsFinite := by
  refine ⟨h.1, fun x hx => ?_⟩
  rw [h.2] at hx
  cases hx

theorem rational?_of_boundedIntegral? (h : v.boundedIntegral? = some n) :
    v.rational? = some (n : ℚ) := by
  rw [rational?, toDecimal?_of_boundedIntegral? h, Option.map_some, Decimal.toRat_ofInt]

theorem mixed_decimal (v : Value) (d : Decimal) : mixed v (decimal d) = false := by
  cases v <;> rfl

theorem compare?_int_zero (hx : v.rational? = some x) :
    v.compare? (int 0) = some (compare x 0) := by
  have hmixed : mixed v (int 0) = false := by
    cases v <;> rfl
  exact compare?_of_rational? hmixed hx (rational?_of_boundedIntegral? rfl)

/-! ### Least numbers -/

/-- The least number of a bounded kind. -/
def IsLeast : Value → Prop
  | byte n => n = Int8.minValue
  | short n => n = Int16.minValue
  | int n => n = Int32.minValue
  | long n => n = Int64.minValue
  | _ => False

theorem negate?_of_isLeast (h : v.IsLeast) : v.negate? = some v := by
  cases v <;> cases h <;> rfl

theorem abs?_of_isLeast (h : v.IsLeast) : v.abs? = some v := by
  cases v <;> cases h <;> rfl

theorem neg_of_isLeast (h : v.IsLeast) (hx : v.rational? = some x) : x < 0 := by
  have hbounded : ∃ n : ℤ, v.boundedIntegral? = some n ∧ n < 0 := by
    cases v <;> cases h <;> exact ⟨_, rfl, by decide⟩
  obtain ⟨n, hn, hneg⟩ := hbounded
  rw [rational?_of_boundedIntegral? hn, Option.some_inj] at hx
  rw [← hx]
  exact_mod_cast hneg

/-! ### Opposites -/

theorem bmod_neg_eq (k : ℕ) (hle : -2 ^ k ≤ n) (hne : n ≠ -2 ^ k) (hlt : n < 2 ^ k) :
    (-n).bmod (2 ^ (k + 1)) = -n := by
  have hhalf : ((2 ^ (k + 1) : ℕ) : ℤ) = 2 * 2 ^ k := by
    push_cast
    ring
  refine Int.bmod_eq_of_le ?_ ?_ <;> rw [hhalf] <;> omega

theorem boundedIntegral?_negate? (h : v.boundedIntegral? = some n) (hleast : ¬ v.IsLeast) :
    ∃ opposite, v.negate? = some opposite ∧ opposite.boundedIntegral? = some (-n) := by
  cases v with
  | byte m =>
    obtain rfl := Option.some.inj h
    have hne : m.toInt ≠ -2 ^ 7 := fun heq => hleast (Int8.toInt_inj.mp heq)
    exact ⟨_, rfl, congrArg some (m.toInt_neg.trans (bmod_neg_eq 7 m.le_toInt hne m.toInt_lt))⟩
  | short m =>
    obtain rfl := Option.some.inj h
    have hne : m.toInt ≠ -2 ^ 15 := fun heq => hleast (Int16.toInt_inj.mp heq)
    exact ⟨_, rfl, congrArg some (m.toInt_neg.trans (bmod_neg_eq 15 m.le_toInt hne m.toInt_lt))⟩
  | int m =>
    obtain rfl := Option.some.inj h
    have hne : m.toInt ≠ -2 ^ 31 := fun heq => hleast (Int32.toInt_inj.mp heq)
    exact ⟨_, rfl, congrArg some (m.toInt_neg.trans (bmod_neg_eq 31 m.le_toInt hne m.toInt_lt))⟩
  | long m =>
    obtain rfl := Option.some.inj h
    have hne : m.toInt ≠ -2 ^ 63 := fun heq => hleast (Int64.toInt_inj.mp heq)
    exact ⟨_, rfl, congrArg some (m.toInt_neg.trans (bmod_neg_eq 63 m.le_toInt hne m.toInt_lt))⟩
  | _ => cases h

theorem rational?_negate? (hleast : ¬ v.IsLeast) (hx : v.rational? = some x) :
    ∃ opposite, v.negate? = some opposite ∧ opposite.rational? = some (-x) := by
  have hbounded : ∀ m : ℤ, v.boundedIntegral? = some m →
      ∃ opposite, v.negate? = some opposite ∧ opposite.rational? = some (-x) := by
    intro m hm
    obtain ⟨opposite, hopposite, hneg⟩ := boundedIntegral?_negate? hm hleast
    rw [rational?_of_boundedIntegral? hm, Option.some_inj] at hx
    exact ⟨opposite, hopposite, by rw [rational?_of_boundedIntegral? hneg, ← hx, Int.cast_neg]⟩
  cases v with
  | byte | short | int | long => exact hbounded _ rfl
  | bigInteger m =>
    refine ⟨_, rfl, ?_⟩
    obtain rfl := Option.some.inj hx
    simp [rational?, toDecimal?]
  | float z => exact ⟨_, rfl, Binary.toRat_neg hx⟩
  | double z => exact ⟨_, rfl, Binary.toRat_neg hx⟩
  | decimal d =>
    obtain rfl := Option.some.inj hx
    exact ⟨_, rfl, congrArg some d.toRat_neg⟩
  | _ => cases hx

/-! ### Absolute values -/

theorem abs?_of_boundedIntegral? (h : v.boundedIntegral? = some n) :
    v.abs? = if n < 0 then v.negate? else some v := by
  cases v with
  | byte m =>
    obtain rfl := Option.some.inj h
    have hneg : m < 0 ↔ m.toInt < 0 := Int8.lt_iff_toInt_lt
    simp only [abs?, negate?, ← hneg]
    split <;> rfl
  | short m =>
    obtain rfl := Option.some.inj h
    have hneg : m < 0 ↔ m.toInt < 0 := Int16.lt_iff_toInt_lt
    simp only [abs?, negate?, ← hneg]
    split <;> rfl
  | int m =>
    obtain rfl := Option.some.inj h
    have hneg : m < 0 ↔ m.toInt < 0 := Int32.lt_iff_toInt_lt
    simp only [abs?, negate?, ← hneg]
    split <;> rfl
  | long m =>
    obtain rfl := Option.some.inj h
    have hneg : m < 0 ↔ m.toInt < 0 := Int64.lt_iff_toInt_lt
    simp only [abs?, negate?, ← hneg]
    split <;> rfl
  | _ => cases h

theorem rational?_abs? (hleast : ¬ v.IsLeast) (hx : v.rational? = some x) :
    ∃ magnitude, v.abs? = some magnitude ∧ magnitude.rational? = some |x| := by
  have hbounded : ∀ m : ℤ, v.boundedIntegral? = some m →
      ∃ magnitude, v.abs? = some magnitude ∧ magnitude.rational? = some |x| := by
    intro m hm
    have hxm := rational?_of_boundedIntegral? hm
    rw [hx, Option.some_inj] at hxm
    rw [abs?_of_boundedIntegral? hm]
    split
    · rename_i hneg
      have hx0 : x < 0 := by
        rw [hxm]
        exact_mod_cast hneg
      rw [abs_of_neg hx0]
      exact rational?_negate? hleast hx
    · rename_i hnonneg
      have hx0 : 0 ≤ x := by
        rw [hxm]
        exact_mod_cast not_lt.mp hnonneg
      rw [abs_of_nonneg hx0]
      exact ⟨v, rfl, hx⟩
  cases v with
  | byte | short | int | long => exact hbounded _ rfl
  | bigInteger m =>
    obtain rfl := Option.some.inj hx
    exact ⟨_, rfl, by simp [rational?, toDecimal?]⟩
  | float z => exact ⟨_, rfl, Binary.toRat_abs BinaryFormat.single_searchable hx⟩
  | double z => exact ⟨_, rfl, Binary.toRat_abs BinaryFormat.double_searchable hx⟩
  | decimal d =>
    obtain rfl := Option.some.inj hx
    exact ⟨_, rfl, congrArg some d.toRat_abs⟩
  | _ => cases hx

theorem mixed_abs? (h : v.abs? = some a) : mixed a v = false := by
  cases v <;> cases h <;> rfl

theorem rational?_difference {zero : Value} (hzero : zero.rational? = some 0)
    (hx : v.rational? = some x) :
    ∃ d, applyArithmetic .sub zero v = .ok (decimal d) ∧ (decimal d).rational? = some (-x) := by
  obtain ⟨z, hz, hzrat⟩ := Option.map_eq_some_iff.mp hzero
  obtain ⟨d, hd, rfl⟩ := Option.map_eq_some_iff.mp hx
  refine ⟨z.sub d, applyArithmetic_sub hz hd, congrArg some ?_⟩
  rw [Decimal.toRat_sub, hzrat, zero_sub]

end Value

namespace Expr

variable {env : Environment} {context : Context} {e : Expr} {v : Value}

/-- The names of the function of absolute values. -/
def absNames : List String := ["Math.abs", "ABS"]

theorem evaluates_neg (hshape : e.isNegatable) (h : e.Evaluates env context (.value v))
    (hnumeric : v.isNumeric) {opposite : Value} (hopposite : v.negate? = some opposite) :
    (unary .neg e).Evaluates env context (.value opposite) := by
  have happly : UnaryOperator.neg.apply (.value v) = .ok (.value opposite) := by
    cases v <;> first | (cases hopposite; rfl) | cases hnumeric
  exact h.unary (if_pos hshape) happly

theorem evaluates_abs (hregistry : env.registry = .builtin) {name : String}
    (hname : name ∈ absNames) (h : e.Evaluates env context (.value v)) (hnumeric : v.isNumeric)
    {magnitude : Value}
    (hmagnitude : v.abs? = some magnitude) :
    (callFunction name [e]).Evaluates env context (.value magnitude) := by
  have haggregate : ∀ name ∈ absNames, AggregateKind.ofName? name = none := by decide +kernel
  have hfunction : ∀ name ∈ absNames, Registry.builtin.function? name = some (.math .abs) := by
    intro name hname
    simp only [absNames, List.mem_cons, List.not_mem_nil, or_false] at hname
    rcases hname with rfl | rfl <;> rfl
  have happly : MathFunction.abs.apply v = .ok magnitude := by
    cases v <;> first | (cases hmagnitude; rfl) | cases hnumeric
  exact h.mathFunction (haggregate name hname)
    (by rw [hregistry]; exact hfunction name hname) happly

theorem evaluates_difference {zero difference : Value} (hzero : zero.isNumeric)
    (h : e.Evaluates env context (.value v)) (hnumeric : v.isNumeric)
    (hsub : Value.applyArithmetic .sub zero v = .ok difference) :
    (binary .sub (literal zero) e).Evaluates env context (.value difference) := by
  have hdifference : (binary .sub (literal zero) e).Evaluates env context
      (.ofArithmetic (Value.applyArithmetic .sub zero v)) :=
    .arithmetic rfl (evaluates_literal zero) h hzero hnumeric
  rwa [hsub] at hdifference

end Expr

namespace Value

/-- The opposite of a finite number is the number that it leaves when it is taken from zero, and its
absolute value is the one of the two that is not below zero. The least number of a bounded kind is
its own opposite and its own absolute value instead, though it is below zero and the difference is
not. The operators and the function come to these values. -/
theorem negation_agrees (v zero : Value) (hv : v.IsFinite) (hzero : zero.rational? = some 0) :
    ∃ opposite magnitude difference : Value, v.negate? = some opposite ∧
      v.abs? = some magnitude ∧ applyArithmetic .sub zero v = .ok difference ∧
      (¬ v.IsLeast → opposite.looseEq difference ∧
        magnitude.looseEq (if v.compare? (int 0) = some .lt then difference else v) ∧
        (magnitude.compare? (int 0)).any Ordering.isGE) ∧
      (v.IsLeast → opposite = v ∧ magnitude = v ∧ v.compare? (int 0) = some .lt ∧
        difference.compare? (int 0) = some .gt) ∧
      ∀ (env : Environment) (context : Context) (e : Expr), e.Evaluates env context (.value v) →
        (e.isNegatable → (Expr.unary .neg e).Evaluates env context (.value opposite)) ∧
        (Expr.binary .sub (.literal zero) e).Evaluates env context (.value difference) ∧
        (env.registry = .builtin → ∀ name ∈ Expr.absNames,
          (Expr.callFunction name [e]).Evaluates env context (.value magnitude)) := by
  obtain ⟨x, hx⟩ := (isFinite_iff hv.1).mp hv
  obtain ⟨d, hsub, hd⟩ := rational?_difference hzero hx
  have hvalues : ∃ opposite magnitude : Value, v.negate? = some opposite ∧
      v.abs? = some magnitude ∧
      (¬ v.IsLeast → opposite.rational? = some (-x) ∧ magnitude.rational? = some |x|) ∧
      (v.IsLeast → opposite = v ∧ magnitude = v) := by
    by_cases hleast : v.IsLeast
    · exact ⟨v, v, negate?_of_isLeast hleast, abs?_of_isLeast hleast, fun h => absurd hleast h,
        fun _ => ⟨rfl, rfl⟩⟩
    · obtain ⟨opposite, hopposite, horat⟩ := rational?_negate? hleast hx
      obtain ⟨magnitude, hmagnitude, hmrat⟩ := rational?_abs? hleast hx
      exact ⟨opposite, magnitude, hopposite, hmagnitude, fun _ => ⟨horat, hmrat⟩,
        fun h => absurd h hleast⟩
  obtain ⟨opposite, magnitude, hopposite, hmagnitude, hrat, hself⟩ := hvalues
  refine ⟨opposite, magnitude, decimal d, hopposite, hmagnitude, hsub, fun hleast => ?_,
    fun hleast => ?_, fun env context e h => ⟨fun hshape => ?_, ?_, fun hregistry name hname => ?_⟩⟩
  · obtain ⟨horat, hmrat⟩ := hrat hleast
    have hbelow : v.compare? (int 0) = some .lt ↔ x < 0 := by
      rw [compare?_int_zero hx, Option.some_inj, compare_lt_iff_lt]
    refine ⟨(looseEq_iff_of_rational? (mixed_decimal opposite d) horat hd).mpr rfl, ?_, ?_⟩
    · simp only [hbelow]
      split
      · rename_i hneg
        exact (looseEq_iff_of_rational? (mixed_decimal magnitude d) hmrat hd).mpr (abs_of_neg hneg)
      · rename_i hnonneg
        exact (looseEq_iff_of_rational? (mixed_abs? hmagnitude) hmrat hx).mpr
          (abs_of_nonneg (not_lt.mp hnonneg))
    · rw [compare?_int_zero hmrat, Option.any_some, Ordering.isGE_iff_ne_lt]
      exact compare_ge_iff_ge.mpr (abs_nonneg x)
  · obtain ⟨rfl, rfl⟩ := hself hleast
    have hneg := neg_of_isLeast hleast hx
    refine ⟨rfl, rfl, ?_, ?_⟩
    · rw [compare?_int_zero hx, compare_lt_iff_lt.mpr hneg]
    · rw [compare?_int_zero hd, compare_gt_iff_gt.mpr (neg_pos.mpr hneg)]
  · exact Expr.evaluates_neg hshape h hv.1 hopposite
  · exact Expr.evaluates_difference (isNumeric_of_rational? hzero) h hv.1 hsub
  · exact Expr.evaluates_abs hregistry hname h hv.1 hmagnitude

/-- Minus five as a short integer, taken from zero as a double. -/
theorem negation_agrees_minusFive :
    (short (-5)).IsFinite ∧ (double (.zero false)).rational? = some 0 ∧ ¬ (short (-5)).IsLeast ∧
      ∃ magnitude difference : Value, (short (-5)).abs? = some magnitude ∧
        applyArithmetic .sub (double (.zero false)) (short (-5)) = .ok difference ∧
        (short 5).looseEq difference ∧
        magnitude.looseEq
          (if (short (-5)).compare? (int 0) = some .lt then difference else short (-5)) := by
  have hfinite : (short (-5)).IsFinite := isFinite_of_isExact ⟨rfl, rfl⟩
  have hzero : (double (.zero false)).rational? = some 0 := by decide +kernel
  have hleast : ¬ (short (-5)).IsLeast := by
    change ¬ (-5 : Int16) = Int16.minValue
    decide
  obtain ⟨opposite, magnitude, difference, hopposite, hmagnitude, hsub, hagrees, -⟩ :=
    negation_agrees (short (-5)) (double (.zero false)) hfinite hzero
  obtain rfl : opposite = short 5 := (Option.some.inj hopposite).symm
  obtain ⟨hequal, habs, -⟩ := hagrees hleast
  exact ⟨hfinite, hzero, hleast, magnitude, difference, hmagnitude, hsub, hequal, habs⟩

/-- The least byte taken from zero is 128, but it is its own opposite and its own absolute value. -/
theorem negation_of_leastByte :
    (byte (-128)).IsFinite ∧ applyArithmetic .sub (int 0) (byte (-128)) = .ok (decimal ⟨128, 0⟩) ∧
      (byte (-128)).negate? = some (byte (-128)) ∧ (byte (-128)).abs? = some (byte (-128)) ∧
      (byte (-128)).compare? (int 0) = some .lt ∧
      (byte (-128)).looseEq (decimal ⟨128, 0⟩) = false := by
  refine ⟨isFinite_of_isExact ⟨rfl, rfl⟩, rfl, rfl, rfl, ?_, ?_⟩ <;> decide +kernel

end Value

end ObjectQuery
