import Mathlib
import ObjectQuery.Proofs.Number.Decimal

/-!
Sums and quotients of decimals as rational numbers. Main statements: sums are exact, and a quotient
that is not exact has a hundred digits or more, the last of which is rounded.
-/

namespace ObjectQuery.Decimal

@[simp] theorem toRat_add (a b : Decimal) : (a.add b).toRat = a.toRat + b.toRat := by
  rw [← unscaledAt_mul_zpow (le_max_left a.scale b.scale),
    ← unscaledAt_mul_zpow (le_max_right a.scale b.scale), ← add_mul, ← Int.cast_add]
  rfl

theorem toRat_foldl_add (numbers : List Decimal) (start : Decimal) :
    (numbers.foldl add start).toRat = start.toRat + (numbers.map toRat).sum := by
  induction numbers generalizing start with
  | nil => simp
  | cons first rest ih =>
    rw [List.foldl_cons, ih, toRat_add, List.map_cons, List.sum_cons, add_assoc]

theorem toRat_of_isZero {d : Decimal} (h : d.isZero) : d.toRat = 0 := by
  rw [isZero, beq_iff_eq] at h
  rw [toRat, h, Int.cast_zero, zero_mul]

theorem toRat_eq_one_of_isOne {d : Decimal} (h : d.isOne) : d.toRat = 1 := by
  rw [isOne, beq, beq_iff_eq, compare_eq_toRat, toRat_ofInt, Int.cast_one] at h
  exact Std.LawfulEqCmp.eq_of_compare h

/-- A decimal with digits enough for a number: all that the number has, or at least a hundred of
which the last is rounded. -/
def Approximates (d : Decimal) (x : ℚ) : Prop :=
  d.toRat = x ∨
    10 ^ (quotientDigits - 1) ≤ d.unscaled.natAbs ∧ |d.toRat - x| ≤ 10 ^ (-d.scale) / 2

theorem Approximates.neg {d : Decimal} {x : ℚ} (h : d.Approximates x) :
    d.neg.Approximates (-x) := by
  rcases h with h | ⟨hdigits, hnear⟩
  · exact .inl (by rw [toRat_neg, h])
  · refine .inr ⟨by rwa [Decimal.neg, Int.natAbs_neg], ?_⟩
    rw [toRat_neg, ← neg_sub', abs_neg]
    exact hnear

/-! ### The digits of a quotient -/

theorem lt_ten_pow_digitCount (n : ℕ) : n < 10 ^ digitCount n :=
  (Nat.length_toDigits_le_iff (by decide) Nat.length_toDigits_pos).mp le_rfl

theorem ten_pow_le_of_pos {n : ℕ} (hpos : 0 < n) : 10 ^ (digitCount n - 1) ≤ n := by
  by_contra hlt
  rcases Nat.eq_zero_or_pos (digitCount n - 1) with hone | hmore
  · rw [hone] at hlt
    omega
  · have := (Nat.length_toDigits_le_iff (by decide) hmore).mpr (not_le.mp hlt)
    rw [← digitCount] at this
    omega

theorem raise_eq {denominator fuel numerator : ℕ} (h : denominator ≤ numerator * 10 ^ fuel)
    (scale : ℤ) : ∃ k : ℕ, raise denominator fuel numerator scale =
      (numerator * 10 ^ k, scale + k) ∧ denominator ≤ numerator * 10 ^ k := by
  induction fuel generalizing numerator scale with
  | zero => exact ⟨0, by simp [raise], h⟩
  | succ fuel ih =>
    rw [raise]
    split
    · have hnext : denominator ≤ numerator * 10 * 10 ^ fuel := by
        rwa [mul_assoc, ← pow_succ']
      obtain ⟨k, hraise, hle⟩ := ih hnext (scale + 1)
      refine ⟨k + 1, ?_, by rwa [pow_succ', ← mul_assoc]⟩
      rw [hraise, pow_succ', ← mul_assoc, Nat.cast_succ, add_assoc, add_comm 1]
    · exact ⟨0, by simp, by simpa using not_lt.mp ‹_›⟩

/-- The digits appended to a quotient give it exactly, or fill all places and are rounded. -/
theorem expand_eq {denominator : ℕ} (hpos : 0 < denominator) (places quotient remainder : ℕ)
    (scale : ℤ) (hlt : remainder < denominator) :
    ∃ (digits k : ℕ), expand denominator places quotient remainder scale = ⟨digits, scale + k⟩ ∧
      ((digits : ℚ) = (quotient + remainder / denominator : ℚ) * 10 ^ k ∨
        quotient * 10 ^ places ≤ digits ∧
          |(digits : ℚ) - (quotient + remainder / denominator : ℚ) * 10 ^ k| ≤ 1 / 2) := by
  have hden : (0 : ℚ) < denominator := Nat.cast_pos.mpr hpos
  induction places generalizing quotient remainder scale with
  | zero =>
    have hnonneg : (0 : ℚ) ≤ remainder / denominator := by positivity
    have hlt' : (remainder / denominator : ℚ) < 1 := by
      rw [div_lt_one hden]
      exact_mod_cast hlt
    rw [expand]
    split
    · rename_i hhalf
      have hhalf' : (1 / 2 : ℚ) ≤ remainder / denominator := by
        rw [le_div_iff₀ hden]
        have : (denominator : ℚ) ≤ 2 * remainder := by exact_mod_cast hhalf
        linarith
      refine ⟨quotient + 1, 0, by simp, .inr ⟨by omega, ?_⟩⟩
      rw [abs_le]
      push_cast
      constructor <;> linarith
    · rename_i hhalf
      have hhalf' : (remainder / denominator : ℚ) < 1 / 2 := by
        rw [div_lt_iff₀ hden]
        have : (2 * remainder : ℚ) < denominator := by exact_mod_cast not_le.mp hhalf
        linarith
      refine ⟨quotient, 0, by simp, .inr ⟨by omega, ?_⟩⟩
      rw [abs_le]
      constructor <;> linarith
  | succ places ih =>
    rw [expand]
    split
    · rename_i hzero
      exact ⟨quotient, 0, by simp, .inl (by simp [hzero])⟩
    · obtain ⟨digits, k, hexpand, hdigits⟩ := ih (quotient * 10 + remainder * 10 / denominator)
        (remainder * 10 % denominator) (scale + 1) (Nat.mod_lt _ hpos)
      -- One more digit leaves the number as it is.
      have hvalue : ((quotient * 10 + remainder * 10 / denominator : ℕ) +
          (remainder * 10 % denominator : ℕ) / denominator : ℚ) =
            (quotient + remainder / denominator) * 10 := by
        have hsplit : ((remainder * 10 : ℕ) : ℚ) =
            denominator * (remainder * 10 / denominator : ℕ) +
              (remainder * 10 % denominator : ℕ) := by
          exact_mod_cast (Nat.div_add_mod (remainder * 10) denominator).symm
        field_simp
        push_cast at hsplit ⊢
        linarith
      rw [hvalue, mul_assoc, ← pow_succ'] at hdigits
      refine ⟨digits, k + 1, ?_, hdigits.imp_right fun h => ⟨le_trans ?_ h.1, h.2⟩⟩
      · rw [hexpand, Nat.cast_succ, add_assoc, add_comm 1]
      · rw [pow_succ', ← mul_assoc]
        exact Nat.mul_le_mul_right _ (Nat.le_add_right _ _)

theorem expand_approximates {denominator numerator : ℕ} (hpos : 0 < denominator)
    (hle : denominator ≤ numerator) (scale : ℤ) :
    (expand denominator (quotientDigits - digitCount (numerator / denominator))
      (numerator / denominator) (numerator % denominator) scale).Approximates
        (numerator / denominator * 10 ^ (-scale)) := by
  set whole := numerator / denominator with hwhole
  obtain ⟨digits, k, hexpand, hdigits⟩ := expand_eq hpos (quotientDigits - digitCount whole) whole
    (numerator % denominator) scale (Nat.mod_lt _ hpos)
  have hvalue : (whole + (numerator % denominator : ℕ) / denominator : ℚ) =
      numerator / denominator := by
    have hsplit : (numerator : ℚ) = denominator * whole + (numerator % denominator : ℕ) := by
      exact_mod_cast (Nat.div_add_mod numerator denominator).symm
    have hden : (denominator : ℚ) ≠ 0 := Nat.cast_ne_zero.mpr hpos.ne'
    rw [hsplit]
    field_simp
  have hpower : (10 : ℚ) ^ (-scale) = 10 ^ k * 10 ^ (-(scale + k)) := by
    rw [← zpow_natCast, ← zpow_add₀ (by norm_num)]
    congr 1
    ring
  rw [hvalue] at hdigits
  rw [hexpand, hpower, ← mul_assoc]
  rcases hdigits with hexact | ⟨hmany, hnear⟩
  · exact .inl (by rw [toRat, Int.cast_natCast, hexact])
  · refine .inr ⟨?_, ?_⟩
    · have hleast : 10 ^ (digitCount whole - 1) ≤ whole :=
        ten_pow_le_of_pos (Nat.div_pos hle hpos)
      have hcount : 0 < digitCount whole := Nat.length_toDigits_pos
      calc 10 ^ (quotientDigits - 1)
          ≤ 10 ^ (digitCount whole - 1 + (quotientDigits - digitCount whole)) :=
            Nat.pow_le_pow_right (by decide) (by omega)
        _ = 10 ^ (digitCount whole - 1) * 10 ^ (quotientDigits - digitCount whole) := pow_add _ _ _
        _ ≤ whole * 10 ^ (quotientDigits - digitCount whole) := Nat.mul_le_mul_right _ hleast
        _ ≤ digits := hmany
    · have hpow : (0 : ℚ) < 10 ^ (-(scale + k)) := by positivity
      rw [toRat, Int.cast_natCast, ← sub_mul, abs_mul, abs_of_pos hpow]
      calc _ ≤ 1 / 2 * (10 : ℚ) ^ (-(scale + k)) := mul_le_mul_of_nonneg_right hnear hpow.le
        _ = 10 ^ (-(scale + k)) / 2 := by ring

theorem toRat_abs (d : Decimal) : d.abs.toRat = |d.toRat| := by
  have hpow : (0 : ℚ) < 10 ^ (-d.scale) := by positivity
  rw [toRat, toRat, abs_mul, abs_of_pos hpow, Decimal.abs, Int.cast_natCast, Nat.cast_natAbs,
    Int.cast_abs]

theorem abs_toRat_eq (d : Decimal) : |d.toRat| = if d.unscaled < 0 then -d.toRat else d.toRat := by
  have hpow : (0 : ℚ) ≤ 10 ^ (-d.scale) := by positivity
  rw [toRat]
  split
  · rename_i hneg
    exact abs_of_nonpos (mul_nonpos_of_nonpos_of_nonneg (Int.cast_nonpos.mpr hneg.le) hpow)
  · rename_i hnonneg
    exact abs_of_nonneg (mul_nonneg (Int.cast_nonneg (not_lt.mp hnonneg)) hpow)

theorem toRat_quotient_eq (a b : Decimal) : a.toRat / b.toRat =
    if (a.unscaled < 0) != (b.unscaled < 0) then -|a.toRat / b.toRat| else |a.toRat / b.toRat| := by
  rw [abs_div, abs_toRat_eq, abs_toRat_eq]
  by_cases ha : a.unscaled < 0 <;> by_cases hb : b.unscaled < 0 <;>
    simp [ha, hb, neg_div, div_neg]

/-- A quotient is exact, or it has a hundred digits of which the last one is rounded. -/
theorem quotient_approximates (a : Decimal) {b : Decimal} (hb : b.isZero = false) :
    (a.quotient b).Approximates (a.toRat / b.toRat) := by
  have hb' : b.unscaled ≠ 0 := by simpa [isZero] using hb
  rw [quotient]
  split
  · rename_i htrivial
    refine .inl ?_
    rcases Bool.or_eq_true_iff.mp htrivial with hzero | hone
    · rw [toRat_of_isZero hzero, zero_div]
    · rw [toRat_eq_one_of_isOne hone, div_one]
  rename_i htrivial
  have ha : a.unscaled ≠ 0 := by
    intro hzero
    simp [isZero, hzero] at htrivial
  split
  · rename_i hequal
    refine .inl ?_
    rw [toRat, toRat, toRat, hequal, mul_div_mul_left _ _ (Int.cast_ne_zero.mpr hb'),
      ← zpow_sub₀ (by norm_num), Int.cast_one, one_mul]
    congr 1
    ring
  have hden : 0 < b.unscaled.natAbs := Int.natAbs_pos.mpr hb'
  have hreach : b.unscaled.natAbs ≤ a.unscaled.natAbs * 10 ^ digitCount b.unscaled.natAbs :=
    (lt_ten_pow_digitCount _).le.trans (Nat.le_mul_of_pos_left _ (Int.natAbs_pos.mpr ha))
  obtain ⟨k, hraise, hle⟩ := raise_eq hreach (a.scale - b.scale)
  have hmagnitude := expand_approximates hden hle (a.scale - b.scale + k)
  have habs : ((a.unscaled.natAbs * 10 ^ k : ℕ) / b.unscaled.natAbs *
      10 ^ (-(a.scale - b.scale + k)) : ℚ) = |a.toRat / b.toRat| := by
    have hpower : (10 : ℚ) ^ (-(a.scale - b.scale + k)) =
        10 ^ (-a.scale) / 10 ^ (-b.scale) / 10 ^ k := by
      rw [← zpow_sub₀ (by norm_num), ← zpow_natCast, ← zpow_sub₀ (by norm_num)]
      congr 1
      ring
    rw [abs_div, ← toRat_abs, ← toRat_abs, toRat, toRat, hpower]
    simp only [Decimal.abs, Int.cast_natCast, Nat.cast_mul, Nat.cast_pow, Nat.cast_ofNat]
    field_simp
  rw [habs] at hmagnitude
  simp only [hraise]
  rw [toRat_quotient_eq]
  split
  · exact hmagnitude.neg
  · exact hmagnitude

theorem div_approximates (a : Decimal) {b : Decimal} (hb : b.isZero = false)
    (hfits : scaleFits (a.quotient b).scale) : (a.div b).Approximates (a.toRat / b.toRat) := by
  rw [div, wrapped_eq_self hfits]
  exact a.quotient_approximates hb

end ObjectQuery.Decimal
