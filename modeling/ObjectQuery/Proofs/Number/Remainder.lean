import ObjectQuery.Proofs.Number.Quotient

/-!
Products and remainders of decimals as rational numbers. Main statements: products are exact as far
as there are scales for them, and a remainder is the one of truncated division, which the numbers
that are divided determine.
-/

namespace ObjectQuery

/-! ### Products -/

namespace Decimal

theorem isZero_iff {d : Decimal} : d.isZero ↔ d.toRat = 0 := by
  refine ⟨toRat_of_isZero, fun h => ?_⟩
  have hpow : (10 : ℚ) ^ (-d.scale) ≠ 0 := by positivity
  rw [isZero, beq_iff_eq]
  exact Int.cast_eq_zero.mp ((mul_eq_zero.mp h).resolve_right hpow)

@[simp] theorem toRat_product (a b : Decimal) : (a.product b).toRat = a.toRat * b.toRat := by
  rw [product]
  split
  · rename_i ha
    rw [toRat_eq_one_of_isOne ha, one_mul]
  · split
    · rename_i hb
      rw [toRat_eq_one_of_isOne hb, mul_one]
    · rw [toRat, toRat, toRat, Int.cast_mul, neg_add, zpow_add₀ (by norm_num), mul_mul_mul_comm]

theorem toRat_mul_eq_iff {a b : Decimal} : (a.mul b).toRat = a.toRat * b.toRat ↔
    scaleFits (a.product b).scale ∨ a.toRat * b.toRat = 0 := by
  rw [mul, ← toRat_product]
  exact toRat_wrapped_eq_iff

end Decimal

/-! ### Remainders -/

/-- What a truncated division of one number by another leaves. -/
structure IsRemainder (dividend divisor remainder : ℚ) : Prop where
  quotient : ∃ q : ℤ, dividend = q * divisor + remainder
  less : |remainder| < |divisor|
  sign : remainder = 0 ∨ SignType.sign remainder = SignType.sign dividend

namespace IsRemainder

variable {x y m m' : ℚ}

theorem nonneg (h : IsRemainder x y m) (hx : 0 ≤ x) : 0 ≤ m := by
  rcases h.sign with rfl | hsign
  · exact le_rfl
  · rwa [← sign_nonneg_iff, hsign, sign_nonneg_iff]

theorem nonpos (h : IsRemainder x y m) (hx : x ≤ 0) : m ≤ 0 := by
  rcases h.sign with rfl | hsign
  · exact le_rfl
  · rwa [← sign_nonpos_iff, hsign, sign_nonpos_iff]

theorem abs_sub_lt (h : IsRemainder x y m) (h' : IsRemainder x y m') : |m - m'| < |y| := by
  rcases le_total 0 x with hx | hx
  · have hm := h.nonneg hx
    have hm' := h'.nonneg hx
    exact abs_sub_lt_of_nonneg_of_lt hm (abs_of_nonneg hm ▸ h.less) hm'
      (abs_of_nonneg hm' ▸ h'.less)
  · have hm := h.nonpos hx
    have hm' := h'.nonpos hx
    rw [← neg_sub_neg m' m]
    exact abs_sub_lt_of_nonneg_of_lt (neg_nonneg.mpr hm') (abs_of_nonpos hm' ▸ h'.less)
      (neg_nonneg.mpr hm) (abs_of_nonpos hm ▸ h.less)

theorem unique (h : IsRemainder x y m) (h' : IsRemainder x y m') : m = m' := by
  obtain ⟨q, hq⟩ := h.quotient
  obtain ⟨q', hq'⟩ := h'.quotient
  have hdifference : m - m' = ((q' - q : ℤ) : ℚ) * y := by
    push_cast
    linear_combination hq' - hq
  -- The difference is a multiple of the divisor and less than it.
  have hlt := h.abs_sub_lt h'
  rw [hdifference, abs_mul] at hlt
  have hpos : 0 < |y| := (abs_nonneg m).trans_lt h.less
  have hsmall : |((q' - q : ℤ) : ℚ)| < 1 := by
    by_contra hge
    exact absurd hlt (not_lt.mpr (le_mul_of_one_le_left hpos.le (not_lt.mp hge)))
  have hzero : q' - q = 0 := by
    rw [← Int.abs_lt_one_iff]
    exact_mod_cast hsmall
  rw [hzero, Int.cast_zero, zero_mul] at hdifference
  exact sub_eq_zero.mp hdifference

theorem tmod (a : ℤ) {b : ℤ} (hb : b ≠ 0) : IsRemainder a b (a.tmod b : ℤ) where
  quotient := ⟨a.tdiv b, by
    rw [← Int.cast_mul, ← Int.cast_add, mul_comm, Int.mul_tdiv_add_tmod]⟩
  less := by
    rw [← Int.cast_abs, ← Int.cast_abs, Int.cast_lt, Int.abs_eq_natAbs, Int.abs_eq_natAbs,
      Int.natAbs_tmod]
    exact_mod_cast Nat.mod_lt _ (Int.natAbs_pos.mpr hb)
  sign := by
    by_cases hdvd : b ∣ a
    · exact .inl (by rw [Int.tmod_eq_zero_of_dvd hdvd, Int.cast_zero])
    · right
      have hinjective : ∀ s t : SignType, (s : ℤ) = t → s = t := by decide
      have hsign := Int.sign_tmod a b
      rw [if_neg hdvd, Int.sign_eq_sign, Int.sign_eq_sign] at hsign
      rw [sign_intCast, sign_intCast]
      exact hinjective _ _ hsign

theorem mul {p : ℚ} (hp : 0 < p) (h : IsRemainder x y m) :
    IsRemainder (x * p) (y * p) (m * p) where
  quotient := by
    obtain ⟨q, hq⟩ := h.quotient
    exact ⟨q, by rw [hq]; ring⟩
  less := by
    rw [abs_mul, abs_mul]
    exact mul_lt_mul_of_pos_right h.less (abs_pos.mpr hp.ne')
  sign := by
    rw [sign_mul, sign_mul, sign_pos hp, mul_one, mul_one, mul_eq_zero]
    exact h.sign.imp_left .inl

end IsRemainder

/-- Decimals leave the remainder of their digits, brought to one scale. -/
theorem Decimal.isRemainder_rem (a : Decimal) {b : Decimal} (hb : b.isZero = false) :
    IsRemainder a.toRat b.toRat (a.rem b).toRat := by
  set scale := max a.scale b.scale with hscale
  have ha : a.toRat = a.unscaledAt scale * 10 ^ (-scale) :=
    (unscaledAt_mul_zpow (le_max_left _ _)).symm
  have hb' : b.toRat = b.unscaledAt scale * 10 ^ (-scale) :=
    (unscaledAt_mul_zpow (le_max_right _ _)).symm
  have hdivisor : b.unscaledAt scale ≠ 0 := by
    intro hzero
    rw [hzero, Int.cast_zero, zero_mul, ← isZero_iff, hb] at hb'
    cases hb'
  rw [ha, hb']
  exact (IsRemainder.tmod _ hdivisor).mul (by positivity)

end ObjectQuery
