import ObjectQuery.Proofs.Number.Quotient
import ObjectQuery.Proofs.Number.Truncation

/-!
Integer parts of decimals that are taken by way of the nearest double. Main statement: such an
integer part is that of the decimal exactly if its digits without the surplus ones keep their whole
part as a double, or if it is the greatest integer of 64 bits.
-/

namespace ObjectQuery

namespace Decimal

variable {d : Decimal} {n : ℕ}

/-! ### Integer parts -/

/-- The integer part toward zero. -/
def truncated (d : Decimal) : ℤ := if d.toRat < 0 then ⌈d.toRat⌉ else ⌊d.toRat⌋

theorem toRat_neg_iff (d : Decimal) : d.toRat < 0 ↔ d.unscaled < 0 := by
  have hpow : (0 : ℚ) < 10 ^ (-d.scale) := by positivity
  rw [toRat, ← zero_mul ((10 : ℚ) ^ (-d.scale)), mul_lt_mul_iff_left₀ hpow, Int.cast_lt_zero]

theorem truncated_eq (d : Decimal) :
    d.truncated = signedBy (d.unscaled < 0) ⌊|d.toRat|⌋₊ := by
  rw [truncated, signedBy]
  simp only [toRat_neg_iff, decide_eq_true_eq]
  have hfloor : ((⌊|d.toRat|⌋₊ : ℕ) : ℤ) = ⌊|d.toRat|⌋ := Int.natCast_floor_eq_floor (abs_nonneg _)
  rw [hfloor, abs_toRat_eq]
  split
  · rw [Int.floor_neg, neg_neg]
  · rfl

theorem abs_toRat_of_nonneg (h : 0 ≤ d.scale) :
    |d.toRat| = d.unscaled.natAbs / (10 ^ d.scale.natAbs : ℕ) := by
  have hpow : (10 : ℚ) ^ (-d.scale) = (10 ^ d.scale.natAbs)⁻¹ := by
    rw [zpow_neg, ← zpow_natCast, Int.natAbs_of_nonneg h]
  have hpos : (0 : ℚ) < (10 ^ d.scale.natAbs)⁻¹ := by positivity
  rw [toRat, hpow, abs_mul, abs_of_pos hpos, Nat.cast_natAbs, Int.cast_abs, Nat.cast_pow,
    div_eq_mul_inv]
  rfl

theorem abs_toRat_of_nonpos (h : d.scale ≤ 0) :
    |d.toRat| = (d.unscaled.natAbs * 10 ^ d.scale.natAbs : ℕ) := by
  have hpow : (10 : ℚ) ^ (-d.scale) = 10 ^ d.scale.natAbs := by
    rw [← zpow_natCast, Int.ofNat_natAbs_of_nonpos h]
  have hpos : (0 : ℚ) < 10 ^ d.scale.natAbs := by positivity
  rw [toRat, hpow, abs_mul, abs_of_pos hpos, Nat.cast_mul, Nat.cast_natAbs, Int.cast_abs,
    Nat.cast_pow]
  rfl

theorem floor_abs_of_nonneg (h : 0 ≤ d.scale) :
    ⌊|d.toRat|⌋₊ = d.unscaled.natAbs / 10 ^ d.scale.natAbs := by
  rw [abs_toRat_of_nonneg h, Nat.floor_div_eq_div]

theorem floor_abs_of_nonpos (h : d.scale ≤ 0) :
    ⌊|d.toRat|⌋₊ = d.unscaled.natAbs * 10 ^ d.scale.natAbs := by
  rw [abs_toRat_of_nonpos h, Nat.floor_natCast]

/-! ### Surplus digits -/

/-- A count of digits told by the bits of a number. -/
def digitEstimate (n : ℕ) : ℕ := (n.log2 + 1 + 1) * 30102999566398120 / 100000000000000000

/-- The last digits, which do not take part when a decimal is turned into a double. -/
def surplus (d : Decimal) : ℕ :=
  digitsCut * ((digitEstimate d.unscaled.natAbs - significantDigits) / digitsCut)

/-- A decimal without its surplus digits. -/
def kept (d : Decimal) : Decimal := ⟨d.unscaled.tdiv (10 ^ d.surplus : ℕ), d.scale - d.surplus⟩

@[simp] theorem scale_kept (d : Decimal) : d.kept.scale = d.scale - d.surplus := rfl

@[simp] theorem natAbs_kept (d : Decimal) :
    d.kept.unscaled.natAbs = d.unscaled.natAbs / 10 ^ d.surplus := by
  rw [kept, Int.natAbs_tdiv, Int.natAbs_natCast]
  rfl

theorem kept_of_surplus (h : d.surplus = 0) : d.kept = d := by
  simp [kept, h]

theorem ten_pow_le_two_pow {p q digits bits : ℕ} (hq : q ≠ 0) (h : 10 ^ p ≤ 2 ^ q)
    (hle : q * digits ≤ p * bits) : 10 ^ digits ≤ 2 ^ bits := by
  refine (Nat.pow_le_pow_iff_left hq).mp ?_
  calc (10 ^ digits) ^ q
    _ = 10 ^ (q * digits) := by rw [← pow_mul, Nat.mul_comm]
    _ ≤ 10 ^ (p * bits) := Nat.pow_le_pow_right (by decide) hle
    _ = (10 ^ p) ^ bits := pow_mul _ _ _
    _ ≤ (2 ^ q) ^ bits := Nat.pow_le_pow_left h _
    _ = (2 ^ bits) ^ q := by rw [← pow_mul, ← pow_mul, Nat.mul_comm]

theorem ten_pow_le_of_estimate (hpos : 0 < n) (hbits : n.log2 < 2 ^ 32) :
    10 ^ (digitEstimate n - 1) ≤ n := by
  have hratio : 10 ^ 21306 ≤ 2 ^ 70777 := by decide +kernel
  have hestimate : 70777 * (digitEstimate n - 1) ≤ 21306 * n.log2 := by
    rw [digitEstimate]
    omega
  exact (ten_pow_le_two_pow (by decide) hratio hestimate).trans (Nat.log2_self_le hpos.ne')

theorem surplus_eq_zero_or_lt (hbits : d.unscaled.natAbs.log2 < 2 ^ 32)
    (hrange : ⌊|d.toRat|⌋₊ < 10 ^ 20) : d.surplus = 0 ∨ (d.surplus : ℤ) < d.scale := by
  have hcut : d.surplus ≤ digitEstimate d.unscaled.natAbs - 25 := Nat.mul_div_le _ _
  rcases Nat.eq_zero_or_pos d.surplus with hzero | hsurplus
  · exact .inl hzero
  right
  have hmany : 44 ≤ digitEstimate d.unscaled.natAbs := by
    by_contra hfew
    rw [surplus, significantDigits, digitsCut, Nat.div_eq_of_lt (by omega)] at hsurplus
    omega
  have hpos : 0 < d.unscaled.natAbs := by
    refine Nat.pos_of_ne_zero fun hzero => ?_
    rw [hzero] at hmany
    exact absurd hmany (by decide)
  have hdigits := ten_pow_le_of_estimate hpos hbits
  rcases le_total d.scale 0 with hscale | hscale
  · rw [floor_abs_of_nonpos hscale] at hrange
    have hwhole : 10 ^ (digitEstimate d.unscaled.natAbs - 1) < 10 ^ 20 :=
      (hdigits.trans (Nat.le_mul_of_pos_right _ (by positivity))).trans_lt hrange
    have := (Nat.pow_lt_pow_iff_right (by decide)).mp hwhole
    omega
  · rw [floor_abs_of_nonneg hscale, Nat.div_lt_iff_lt_mul (by positivity), ← pow_add] at hrange
    have := (Nat.pow_lt_pow_iff_right (by decide)).mp (hdigits.trans_lt hrange)
    omega

theorem floor_abs_kept (h : d.surplus = 0 ∨ (d.surplus : ℤ) < d.scale) :
    ⌊|d.kept.toRat|⌋₊ = ⌊|d.toRat|⌋₊ := by
  rcases h with hzero | hlt
  · rw [kept_of_surplus hzero]
  · have hkept : 0 ≤ d.kept.scale := by
      rw [scale_kept]
      omega
    have hscale : d.scale.natAbs = d.surplus + d.kept.scale.natAbs := by
      rw [scale_kept]
      omega
    rw [floor_abs_of_nonneg hkept, floor_abs_of_nonneg (by omega), hscale, pow_add,
      ← Nat.div_div_eq_div_mul, natAbs_kept]

end Decimal

namespace Binary

open BinaryFormat
open Decimal (signedBy signedBy_zero natAbs_signedBy)

variable {negative : Bool} {digits : ℕ} {f : BinaryFormat}

/-! ### Digits behind the point -/

theorem toInt64_zero (negative : Bool) : (zero negative : Double).toInt64.toInt = 0 := by
  rw [zero, toInt_toInt64_finite, Nat.zero_div]
  cases negative <;> rfl

theorem toInt64_ofDigits_eq_iff {scale : ℤ} (hscale : 0 < scale)
    (hrange : signedBy negative (digits / 10 ^ scale.natAbs) ∈ Set.Ico (-2 ^ 63) (2 ^ 63)) :
    (ofDigits negative digits scale : Double).toInt64.toInt =
        signedBy negative (digits / 10 ^ scale.natAbs) ↔
      double.KeepsWhole (digits / (10 ^ scale.natAbs : ℕ)) ∨
        signedBy negative (digits / 10 ^ scale.natAbs) = 2 ^ 63 - 1 := by
  have hpos : 0 < 10 ^ scale.natAbs := by positivity
  have hsmall : 2 * digits ≤ 10 ^ scale.natAbs →
      ((zero negative : Double).toInt64.toInt = signedBy negative (digits / 10 ^ scale.natAbs) ↔
        double.KeepsWhole (digits / (10 ^ scale.natAbs : ℕ)) ∨
          signedBy negative (digits / 10 ^ scale.natAbs) = 2 ^ 63 - 1) := by
    intro hle
    rw [Nat.div_eq_of_lt (by omega), signedBy_zero, toInt64_zero]
    exact iff_of_true rfl (.inl (keepsWhole_div_of_le_half (by decide) hpos hle))
  rw [ofDigits]
  split
  · rename_i hzero
    exact hsmall (by rw [hzero]; exact Nat.zero_le _)
  · rw [if_neg (not_le.mpr hscale)]
    split
    · rename_i htiny
      refine hsmall ?_
      calc 2 * digits
        _ ≤ 2 * 2 ^ (digits.log2 + 1) := Nat.mul_le_mul_left 2 Nat.lt_log2_self.le
        _ = 2 ^ (digits.log2 + 2) := by ring
        _ ≤ 2 ^ scale.natAbs := Nat.pow_le_pow_right (by decide) (by omega)
        _ ≤ 10 ^ scale.natAbs := Nat.pow_le_pow_left (by decide) _
    · exact toInt64_ofRatio_eq_iff hpos hrange

/-! ### Powers of ten above the point -/

theorem roundHalfEven_mul_mul_right (numerator denominator : ℕ) {c : ℕ} (hc : 0 < c) :
    roundHalfEven (numerator * c) (denominator * c) = roundHalfEven numerator denominator := by
  have htwice : 2 * (numerator * c % (denominator * c)) = 2 * (numerator % denominator) * c := by
    rw [Nat.mul_mod_mul_right, Nat.mul_assoc]
  rw [roundHalfEven, roundHalfEven, Nat.mul_div_mul_right _ _ hc, htwice]
  simp only [Nat.mul_lt_mul_right hc, beq_iff_eq, Bool.or_eq_true, decide_eq_true_eq,
    Bool.and_eq_true, Nat.mul_left_inj hc.ne']

theorem roundUnits_mul_mul_right (numerator denominator : ℕ) {c : ℕ} (hc : 0 < c) :
    roundUnits f (numerator * c) (denominator * c) = roundUnits f numerator denominator := by
  rw [roundUnits, roundUnits, Nat.mul_div_mul_right _ _ hc, Nat.mul_right_comm,
    roundHalfEven_mul_mul_right _ _ hc]

theorem pow_ten {k : ℕ} (hk : k < 20) :
    ∃ fits, (pow (ofInt 10) k : Double) = finite false (10 ^ k * double.one) fits := by
  have hpowers : ∀ k < 20, (pow (ofInt 10) k : Double).isFinite ∧
      (pow (ofInt 10) k : Double).rank? = some ((10 ^ k * double.one : ℕ) : ℤ) := by
    decide +kernel
  obtain ⟨hfinite, hrank⟩ := hpowers k hk
  have hpos : 0 < 10 ^ k * double.one := Nat.mul_pos (by positivity) double.one_pos
  generalize 10 ^ k * double.one = units at *
  cases hpow : (pow (ofInt 10) k : Double) with
  | nan | infinite => rw [hpow] at hfinite; cases hfinite
  | finite negative units' fits =>
    rw [hpow] at hrank
    have hunits := Option.some.inj hrank
    cases negative with
    | false =>
      obtain rfl : units' = units := Int.natCast_inj.mp hunits
      exact ⟨fits, rfl⟩
    | true =>
      have hneg : -(units' : ℤ) = units := hunits
      omega

theorem ofInt_eq_finite {m : ℕ} (hm : 0 < m) (hfits : f.Fits (m * f.one)) :
    ofInt (signedBy negative m) = finite negative (m * f.one) hfits := by
  have hsign : decide (signedBy negative m < 0) = negative := by
    cases negative <;> simp [signedBy, hm]
  have hround : roundUnits f (m * f.one) 1 = m * f.one := by
    have := roundUnits_mul hfits Nat.one_pos
    rwa [Nat.one_mul] at this
  have hfits' : f.Fits (roundUnits f (m * f.one) 1) := by rwa [hround]
  rw [ofInt, hsign, natAbs_signedBy, ofRatio_eq_finite negative hfits']
  simp only [hround]

theorem mul_eq_ofRatio {m n : ℕ} (hm : f.Fits (m * f.one)) (hn : f.Fits (n * f.one)) :
    mul (finite negative (m * f.one) hm) (finite false (n * f.one) hn) =
      ofRatio negative (m * n) 1 := by
  have hunits : roundUnits f (m * f.one * (n * f.one)) f.one =
      roundUnits f (m * n * f.one) 1 := by
    rw [← roundUnits_mul_mul_right (m * n * f.one) 1 f.one_pos]
    congr 1 <;> ring
  have hmul : mul (finite negative (m * f.one) hm) (finite false (n * f.one) hn) =
      ofUnits (negative != false) (roundUnits f (m * f.one * (n * f.one)) f.one) := rfl
  rw [hmul, hunits, Bool.bne_false]
  rfl

theorem fits_mul_one (hp : 0 < f.precision) (hfraction : f.precision ≤ f.fractionBits) {m : ℕ}
    (hm : f.gap m ∣ m) (hlt : m * f.one < 2 ^ f.magnitudeBits) : f.Fits (m * f.one) := by
  rcases Nat.eq_zero_or_pos m with rfl | hpos
  · rw [Nat.zero_mul]
    exact f.fits_zero
  have hwhole : m * f.one / f.one = m := Nat.mul_div_cancel m f.one_pos
  refine ⟨hlt, ?_⟩
  change f.gap (m * f.one) ∣ m * f.one
  rcases Nat.lt_or_ge m (2 ^ f.precision) with hsmall | hlarge
  · have hone : f.one ≤ m * f.one := Nat.le_mul_of_pos_left _ hpos
    have hgap := gap_mul_two_pow (n := m * f.one) hp hfraction (by omega)
    rw [hwhole] at hgap
    exact (Dvd.intro _ (one_eq_mul hsmall hgap).symm).mul_left m
  · rw [gap_eq_mul_one (by rwa [hwhole]), hwhole]
    exact Nat.mul_dvd_mul_right hm _

theorem mul_one_lt {m bits : ℕ} (hm : m ≤ 2 ^ bits)
    (hbits : bits + f.fractionBits < f.magnitudeBits) : m * f.one < 2 ^ f.magnitudeBits :=
  calc m * f.one
    _ ≤ 2 ^ bits * f.one := Nat.mul_le_mul_right _ hm
    _ = 2 ^ (bits + f.fractionBits) := (pow_add _ _ _).symm
    _ < 2 ^ f.magnitudeBits := Nat.pow_lt_pow_right (by decide) hbits

/-- A power of ten brings in no more twos than bits, so a product of few bits has a factor of few.
-/
theorem gap_dvd_of_mul_ten_pow {m k : ℕ} (hm : 0 < m) (h : f.gap (m * 10 ^ k) ∣ m * 10 ^ k) :
    f.gap m ∣ m := by
  by_cases hspacing : f.spacing m = 0
  · rw [gap, hspacing, pow_zero]
    exact Nat.one_dvd m
  have hlog : m.log2 + k ≤ (m * 10 ^ k).log2 := by
    rw [Nat.le_log2 (by positivity), pow_add]
    exact Nat.mul_le_mul (Nat.log2_self_le hm.ne') (Nat.pow_le_pow_left (by decide) k)
  have hgap : 2 ^ (f.spacing m + k) ∣ m * 5 ^ k * 2 ^ k := by
    have hle : f.spacing m + k ≤ f.spacing (m * 10 ^ k) := by
      rw [spacing] at hspacing ⊢
      rw [spacing]
      omega
    rw [Nat.mul_assoc, ← Nat.mul_pow]
    exact (Nat.pow_dvd_pow 2 hle).trans h
  rw [pow_add] at hgap
  have hdvd := Nat.dvd_of_mul_dvd_mul_right (Nat.two_pow_pos k) hgap
  exact (Nat.Coprime.pow _ _ (by decide)).dvd_of_dvd_mul_right hdvd

theorem toInt64_mul_pow_eq_iff {m k : ℕ} (hm : 0 < m) (hk : 0 < k)
    (hrange : signedBy negative (m * 10 ^ k) ∈ Set.Ico (-2 ^ 63) (2 ^ 63)) :
    (mul (ofInt (signedBy negative m)) (pow (ofInt 10) k) : Double).toInt64.toInt =
        signedBy negative (m * 10 ^ k) ↔
      double.KeepsWhole (m * 10 ^ k : ℕ) ∨ signedBy negative (m * 10 ^ k) = 2 ^ 63 - 1 := by
  refine ⟨keepsWhole_of_toInt64, ?_⟩
  rintro (hkeeps | hlast)
  · have hle := le_two_pow_63 hrange
    have hpower : k < 20 := by
      have hlt : 10 ^ k < 10 ^ 20 :=
        (Nat.le_mul_of_pos_left _ hm).trans_lt (hle.trans_lt (by decide))
      exact (Nat.pow_lt_pow_iff_right (by decide)).mp hlt
    have hgap := gap_dvd_of_mul_ten_pow hm (keepsWhole_natCast_iff.mp hkeeps)
    have hfits : double.Fits (m * double.one) :=
      fits_mul_one (by decide) (by decide) hgap
        (mul_one_lt ((Nat.le_mul_of_pos_right m (by positivity)).trans hle) (by decide))
    obtain ⟨hten, hpow⟩ := pow_ten hpower
    rw [ofInt_eq_finite hm hfits, hpow, mul_eq_ofRatio hfits hten]
    exact (toInt64_ofRatio_one_eq_iff hrange).mpr (.inl hkeeps)
  · -- The greatest integer of 64 bits does not end in zero.
    obtain ⟨-, hwhole⟩ := eq_of_signedBy_last hlast
    obtain ⟨n, rfl⟩ := Nat.exists_eq_add_one.mpr hk
    rw [pow_succ, ← Nat.mul_assoc] at hwhole
    omega

end Binary

namespace Decimal

open BinaryFormat

variable {d : Decimal}

/-! ### Integer parts by way of doubles -/

theorem toDouble_of_places (hzero : d.unscaled ≠ 0) (hscale : d.scale ≠ 0) :
    d.toDouble = if 0 < d.kept.scale then
        Binary.ofDigits (d.unscaled < 0) d.kept.unscaled.natAbs d.kept.scale
      else Binary.mul (Binary.ofInt (signedBy (d.unscaled < 0) d.kept.unscaled.natAbs))
        (Binary.pow (Binary.ofInt 10) d.kept.scale.natAbs) := by
  rw [toDouble, if_neg (by simpa [isZero] using hzero), if_neg hscale, natAbs_kept, scale_kept]
  rfl

/-- The integer part of the double of a decimal is that of the decimal if and only if the digits
that take part keep their whole part, or if it is the greatest integer of 64 bits. -/
theorem toInt64_toDouble_eq_iff (hbits : d.unscaled.natAbs.log2 < 2 ^ 32)
    (hrange : d.truncated ∈ Set.Ico (-2 ^ 63) (2 ^ 63)) :
    d.toDouble.toInt64.toInt = d.truncated ↔
      double.KeepsWhole |d.kept.toRat| ∨ d.truncated = 2 ^ 63 - 1 := by
  rw [truncated_eq] at hrange ⊢
  have hsurplus := surplus_eq_zero_or_lt hbits ((Binary.le_two_pow_63 hrange).trans_lt (by decide))
  rw [← floor_abs_kept hsurplus] at hrange ⊢
  by_cases hzero : d.unscaled = 0
  · have hkept : d.kept.toRat = 0 := by simp [kept, toRat, hzero]
    have hdouble : d.toDouble = Binary.zero false := by
      rw [toDouble, if_pos (by simp [isZero, hzero])]
    rw [hdouble, hkept, abs_zero, Nat.floor_zero, signedBy_zero, Binary.toInt64_zero]
    exact iff_of_true rfl (.inl (keepsWhole_of_le_half (by decide) (by norm_num)))
  by_cases hscale : d.scale = 0
  · have hkept : d.kept = d := kept_of_surplus (by omega)
    have hwhole : |d.kept.toRat| = (d.unscaled.natAbs : ℕ) := by
      rw [hkept, abs_toRat_of_nonpos hscale.le, hscale, Int.natAbs_zero, pow_zero, Nat.mul_one]
    have hdouble : d.toDouble = Binary.ofRatio (d.unscaled < 0) d.unscaled.natAbs 1 := by
      rw [toDouble, if_neg (by simpa [isZero] using hzero), if_pos hscale, Binary.ofInt]
    rw [hwhole, Nat.floor_natCast] at hrange ⊢
    rw [hdouble]
    exact Binary.toInt64_ofRatio_one_eq_iff hrange
  rw [toDouble_of_places hzero hscale]
  split
  · rename_i hplaces
    rw [floor_abs_of_nonneg hplaces.le] at hrange ⊢
    rw [abs_toRat_of_nonneg hplaces.le]
    exact Binary.toInt64_ofDigits_eq_iff hplaces hrange
  · rename_i hplaces
    rw [scale_kept] at hplaces
    have hkept : d.kept = d := kept_of_surplus (by omega)
    have hnonpos : d.scale ≤ 0 := by omega
    rw [hkept, floor_abs_of_nonpos hnonpos] at hrange ⊢
    rw [abs_toRat_of_nonpos hnonpos]
    exact Binary.toInt64_mul_pow_eq_iff (by omega) (by omega) hrange

theorem kept_of_unscaled_le (h : d.unscaled.natAbs ≤ 2 ^ 53) : d.kept = d := by
  have hlog : d.unscaled.natAbs.log2 ≤ 53 := by
    have := log2_mono h
    rwa [Nat.log2_two_pow] at this
  refine kept_of_surplus ?_
  rw [surplus, digitEstimate, significantDigits, digitsCut]
  omega

theorem keepsWhole_kept_of_le (hdigits : d.unscaled.natAbs ≤ 2 ^ 53)
    (hwhole : d.truncated.natAbs ≤ 2 ^ 53) : double.KeepsWhole |d.kept.toRat| := by
  have hp : 0 < double.precision := by decide
  have hfloor : d.truncated.natAbs = ⌊|d.toRat|⌋₊ := by
    rw [truncated_eq, natAbs_signedBy]
  rw [kept_of_unscaled_le hdigits]
  rcases le_total d.scale 0 with hscale | hscale
  · rw [hfloor, floor_abs_of_nonpos hscale] at hwhole
    have hkeeps := keepsWhole_div_of_le (f := double) hp Nat.one_pos hwhole
    rwa [Nat.cast_one, div_one, ← abs_toRat_of_nonpos hscale] at hkeeps
  · rw [abs_toRat_of_nonneg hscale]
    exact keepsWhole_div_of_le hp (by positivity) hdigits

end Decimal

end ObjectQuery
