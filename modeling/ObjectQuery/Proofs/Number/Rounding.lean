import ObjectQuery.Proofs.Number.Shortest

/-!
Rounding to a binary format. Main statement: a ratio rounds to a magnitude whose interval holds it,
the same interval in which the shortest digits of the magnitude are looked for.
-/

namespace ObjectQuery

theorem roundHalfEven_bounds (numerator : ℕ) {denominator : ℕ} (hpos : 0 < denominator) :
    let rounded := roundHalfEven numerator denominator
    2 * (rounded * denominator) ≤ 2 * numerator + denominator ∧
      2 * numerator ≤ 2 * (rounded * denominator) + denominator ∧
      (2 * (rounded * denominator) = 2 * numerator + denominator ∨
        2 * numerator = 2 * (rounded * denominator) + denominator → rounded % 2 = 0) := by
  have hdivision : numerator / denominator * denominator + numerator % denominator = numerator :=
    Nat.div_add_mod' numerator denominator
  have hremainder := Nat.mod_lt numerator hpos
  simp only [roundHalfEven]
  generalize hproduct : numerator / denominator * denominator = product at hdivision
  split
  · rename_i hup
    rw [Nat.add_mul, hproduct]
    simp only [Bool.or_eq_true, decide_eq_true_eq, Bool.and_eq_true, beq_iff_eq] at hup
    omega
  · rename_i hdown
    rw [hproduct]
    simp only [Bool.or_eq_true, decide_eq_true_eq, Bool.and_eq_true, beq_iff_eq] at hdown
    omega

namespace BinaryFormat

variable {f : BinaryFormat} {m n numerator denominator : ℕ}

open Binary Binary.Shortest

theorem gap_dvd_two_pow (hp : 0 < f.precision) {k : ℕ} (h : n.log2 ≤ k) : f.gap n ∣ 2 ^ k := by
  refine Nat.pow_dvd_pow 2 ?_
  simp only [spacing]
  omega

/-- The rounded magnitude is a count of gaps of the binade that the ratio lies in, half a gap away
at most, and does not leave the binade but for its upper end. -/
structure RoundsTo (f : BinaryFormat) (numerator denominator rounded : ℕ) : Prop where
  pos : 0 < denominator
  denominator_le : denominator ≤ numerator
  low : 2 ^ (numerator / denominator).log2 ≤ rounded
  high : rounded ≤ 2 ^ ((numerator / denominator).log2 + 1)
  dvd : f.gap (numerator / denominator) ∣ rounded
  le : 2 * (rounded * denominator) ≤ 2 * numerator + f.gap (numerator / denominator) * denominator
  ge : 2 * numerator ≤ 2 * (rounded * denominator) + f.gap (numerator / denominator) * denominator
  even : 2 * (rounded * denominator) =
      2 * numerator + f.gap (numerator / denominator) * denominator ∨
    2 * numerator = 2 * (rounded * denominator) + f.gap (numerator / denominator) * denominator →
      rounded / f.gap (numerator / denominator) % 2 = 0

theorem le_of_scaled_le {a b c d : ℕ} (ha : d ∣ a) (hb : d ∣ b) (hd : 0 < d) (hc : 0 < c)
    (hle : 2 * (a * c) ≤ 2 * (b * c) + d * c) : a ≤ b := by
  by_contra hlt
  have hstep := Nat.mul_le_mul_right c (add_le_of_dvd hb ha (Nat.lt_of_not_le hlt))
  have hpos : 0 < d * c := Nat.mul_pos hd hc
  rw [Nat.add_mul] at hstep
  omega

theorem roundsTo_roundUnits (hp : 0 < f.precision) (hpos : 0 < denominator)
    (hle : denominator ≤ numerator) :
    f.RoundsTo numerator denominator (roundUnits f numerator denominator) := by
  have hquotient : 0 < numerator / denominator := Nat.div_pos hle hpos
  have hlow : 2 ^ (numerator / denominator).log2 * denominator ≤ numerator :=
    (Nat.mul_le_mul_right _ (Nat.log2_self_le hquotient.ne')).trans (Nat.div_mul_le_self _ _)
  have hhigh : numerator < 2 ^ ((numerator / denominator).log2 + 1) * denominator :=
    (Nat.div_lt_iff_lt_mul hpos).mp Nat.lt_log2_self
  have hgap := f.gap_pos (numerator / denominator)
  have hstep : 0 < denominator * f.gap (numerator / denominator) := Nat.mul_pos hpos hgap
  obtain ⟨hle', hge, heven⟩ := roundHalfEven_bounds numerator hstep
  have hrounded : roundUnits f numerator denominator =
      roundHalfEven numerator (denominator * f.gap (numerator / denominator)) *
        f.gap (numerator / denominator) := rfl
  have hdvd : f.gap (numerator / denominator) ∣ roundUnits f numerator denominator :=
    Dvd.intro_left _ hrounded.symm
  have hscaled : roundHalfEven numerator (denominator * f.gap (numerator / denominator)) *
      (denominator * f.gap (numerator / denominator)) =
        roundUnits f numerator denominator * denominator := by
    rw [hrounded]
    ring
  rw [hscaled, Nat.mul_comm denominator] at hle' hge heven
  refine ⟨hpos, hle, ?_, ?_, hdvd, hle', hge, ?_⟩
  · refine le_of_scaled_le (gap_dvd_two_pow hp le_rfl) hdvd hgap hpos ?_
    omega
  · refine le_of_scaled_le hdvd (gap_dvd_two_pow hp (Nat.le_succ _)) hgap hpos ?_
    omega
  · intro htie
    rw [hrounded, Nat.mul_div_cancel _ hgap, Nat.mul_comm denominator]
    exact heven htie

variable {rounded : ℕ}

namespace RoundsTo

theorem log2_eq (h : f.RoundsTo numerator denominator rounded)
    (hlt : rounded < 2 ^ ((numerator / denominator).log2 + 1)) :
    rounded.log2 = (numerator / denominator).log2 := by
  have hpos : rounded ≠ 0 := by
    have := h.low
    have := Nat.two_pow_pos (numerator / denominator).log2
    omega
  exact (Nat.log2_eq_iff hpos).mpr ⟨h.low, hlt⟩

theorem fits (hp : 0 < f.precision) (h : f.RoundsTo numerator denominator rounded)
    (hlog : (numerator / denominator).log2 + 1 < f.magnitudeBits) : f.Fits rounded := by
  refine ⟨h.high.trans_lt (Nat.pow_lt_pow_right (by decide) hlog), ?_⟩
  rcases Nat.eq_or_lt_of_le h.high with rfl | hlt
  · exact gap_dvd_two_pow hp (by rw [Nat.log2_two_pow])
  · have hdvd := h.dvd
    rw [gap, spacing, ← h.log2_eq hlt] at hdvd
    exact hdvd

theorem gap_eq (h : f.RoundsTo numerator denominator rounded)
    (hlt : rounded < 2 ^ ((numerator / denominator).log2 + 1)) :
    f.gap rounded = f.gap (numerator / denominator) := by
  rw [gap, gap, spacing, spacing, h.log2_eq hlt]

theorem gap_le (h : f.RoundsTo numerator denominator rounded) :
    f.gap (numerator / denominator) ≤ f.gap rounded := by
  rcases Nat.eq_or_lt_of_le h.high with rfl | hlt
  · refine Nat.pow_le_pow_right (by decide) ?_
    simp only [spacing, Nat.log2_two_pow]
    omega
  · exact (h.gap_eq hlt).ge

theorem two_mul_gap_le_gapBelow (h : f.RoundsTo numerator denominator rounded)
    (hup : numerator < rounded * denominator) :
    2 * f.gap (numerator / denominator) ≤ f.gapBelow rounded := by
  rw [gapBelow]
  split
  · rename_i hcond
    simp only [Nat.pow_eq, Bool.and_eq_true, beq_iff_eq, decide_eq_true_eq] at hcond
    obtain ⟨hpower, hgap⟩ := hcond
    rcases Nat.eq_or_lt_of_le h.high with htop | hlt
    · rw [htop] at hgap ⊢
      rw [gap, gap, spacing, spacing, Nat.log2_two_pow] at *
      have hspacing : (numerator / denominator).log2 + 1 + 1 - f.precision ≠ 0 := by
        intro hzero
        simp [hzero] at hgap
      rw [← Nat.pow_succ']
      exact Nat.pow_le_pow_right (by decide) (by omega)
    · exfalso
      rw [h.log2_eq hlt] at hpower
      have hquotient : rounded ≤ numerator / denominator := by
        rw [hpower]
        exact Nat.log2_self_le (Nat.div_pos h.denominator_le h.pos).ne'
      exact absurd ((Nat.le_div_iff_mul_le h.pos).mp hquotient) (by omega)
  · exact Nat.mul_le_mul_left 2 h.gap_le

theorem significand_even (hp : 2 ≤ f.precision) (h : f.RoundsTo numerator denominator rounded)
    (htie : 2 * (rounded * denominator) =
        2 * numerator + f.gap (numerator / denominator) * denominator ∨
      2 * numerator =
        2 * (rounded * denominator) + f.gap (numerator / denominator) * denominator) :
    rounded / f.gap rounded % 2 = 0 := by
  rcases Nat.eq_or_lt_of_le h.high with htop | hlt
  · have hdvd : f.gap rounded * 2 ∣ rounded := by
      rw [htop, gap, ← Nat.pow_succ]
      refine Nat.pow_dvd_pow 2 ?_
      simp only [spacing, Nat.log2_two_pow]
      omega
    obtain ⟨c, hc⟩ := hdvd
    nth_rewrite 1 [hc]
    rw [Nat.mul_assoc, Nat.mul_div_cancel_left _ (f.gap_pos rounded), Nat.mul_mod_right]
  · rw [h.gap_eq hlt]
    exact h.even htie

theorem low_le (hp : 2 ≤ f.precision) (h : f.RoundsTo numerator denominator rounded) :
    (4 * rounded - f.gapBelow rounded) * denominator ≤ 4 * numerator ∧
      ((4 * rounded - f.gapBelow rounded) * denominator = 4 * numerator →
        rounded / f.gap rounded % 2 = 0) := by
  have hle := h.le
  have hpos := h.pos
  have hdenominator := h.denominator_le
  rw [Nat.sub_mul, Nat.mul_assoc]
  by_cases hup : numerator < rounded * denominator
  · have hbelow := Nat.mul_le_mul_right denominator (h.two_mul_gap_le_gapBelow hup)
    rw [Nat.mul_assoc] at hbelow
    exact ⟨by omega, fun heq => h.significand_even hp (.inl (by omega))⟩
  · have hbelow := Nat.mul_pos ((f.gap_pos rounded).trans_le (f.gap_le_gapBelow rounded)) hpos
    exact ⟨by omega, fun heq => by omega⟩

theorem le_high (hp : 2 ≤ f.precision) (h : f.RoundsTo numerator denominator rounded) :
    4 * numerator ≤ (4 * rounded + 2 * f.gap rounded) * denominator ∧
      (4 * numerator = (4 * rounded + 2 * f.gap rounded) * denominator →
        rounded / f.gap rounded % 2 = 0) := by
  have hge := h.ge
  have hgap := Nat.mul_le_mul_right denominator h.gap_le
  rw [Nat.add_mul, Nat.mul_assoc, Nat.mul_assoc]
  exact ⟨by omega, fun heq => h.significand_even hp (.inr (by omega))⟩

/-- The interval of the rounded magnitude holds the ratio. -/
theorem holds (hp : 2 ≤ f.precision) (h : f.RoundsTo numerator denominator rounded) {x : ℚ}
    (hx : x * 2 ^ f.fractionBits * denominator = numerator) :
    (Interval.around f rounded).Holds x := by
  have hscale : (0 : ℚ) < denominator := Nat.cast_pos.mpr h.pos
  have hmiddle : x * (4 * 2 ^ f.fractionBits : ℕ) * denominator = (4 * numerator : ℕ) := by
    push_cast
    rw [← hx]
    ring
  obtain ⟨hlow, hlowtie⟩ := h.low_le hp
  obtain ⟨hhigh, hhightie⟩ := h.le_high hp
  rw [Interval.Holds, around_eq]
  simp only
  split
  · constructor
    · refine le_of_mul_le_mul_right ?_ hscale
      rw [hmiddle]
      exact_mod_cast hlow
    · refine le_of_mul_le_mul_right ?_ hscale
      rw [hmiddle]
      exact_mod_cast hhigh
  · rename_i hodd
    have hodd : rounded / f.gap rounded % 2 ≠ 0 := by simpa using hodd
    constructor
    · refine lt_of_mul_lt_mul_right ?_ hscale.le
      rw [hmiddle]
      exact_mod_cast lt_of_le_of_ne hlow fun heq => hodd (hlowtie heq)
    · refine lt_of_mul_lt_mul_right ?_ hscale.le
      rw [hmiddle]
      exact_mod_cast lt_of_le_of_ne hhigh fun heq => hodd (hhightie heq)

end RoundsTo

end BinaryFormat

end ObjectQuery
