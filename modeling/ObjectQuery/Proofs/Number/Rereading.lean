import ObjectQuery.Proofs.Number.Conversion
import ObjectQuery.Proofs.Number.Rounding

/-!
Digits of numbers of one format, read as numbers of a wider one. Main statement: the double that is
read from the shortest digits of a single has these digits, too.
-/

namespace ObjectQuery

/-! ### Where the search ends -/

namespace Binary.Shortest

variable {i : Interval} {exponent : ℤ}

theorem Interval.nearest?_eq_none {tie : DigitTie} (h : i.nearest? tie = none) :
    i.covers (i.middle / i.denominator) = false ∧
      i.covers (i.middle / i.denominator + 1) = false := by
  rw [nearest?.eq_def] at h
  simp only at h
  split at h
  · exact ⟨‹_›, ‹_›⟩
  · cases h
  · cases h
  · split at h
    · cases h
    · split at h
      · cases h
      · split at h <;> cases h

theorem search_exponent (hden : 0 < i.denominator) (hhigh : i.middle < i.high) (tie : DigitTie)
    (fuel : ℕ) (exponent : ℤ) :
    (search i tie fuel exponent).exponent = exponent ∨
      (i.middle : ℚ) - i.low < 10 ^
        ((search i tie fuel exponent).exponent + 1) * i.denominator := by
  induction fuel generalizing exponent with
  | zero => exact .inl rfl
  | succ fuel ih =>
    rw [search]
    split
    · exact .inl rfl
    · rename_i hnone
      refine .inr ?_
      rcases ih (exponent - 1) with hend | hend
      · rw [hend, sub_add_cancel]
        by_contra hfine
        have hfloor := (Interval.covers_onGrid_iff _).mpr
          (Interval.holds_floor hden hhigh (not_lt.mp hfine))
        rw [(Interval.nearest?_eq_none hnone).1] at hfloor
        cases hfloor
      · exact hend

section Coarse

variable {grid : ℤ}

theorem Interval.Holds.eq_of_coarse (hden : 0 < i.denominator)
    (hcoarse : (i.high : ℚ) - i.low < 10 ^ grid * i.denominator) {m n : ℕ}
    (hm : i.Holds (m * 10 ^ grid)) (hn : i.Holds (n * 10 ^ grid)) : m = n := by
  have hstep : (0 : ℚ) < 10 ^ grid * i.denominator := by
    have : (0 : ℚ) < i.denominator := Nat.cast_pos.mpr hden
    positivity
  have hle : ∀ {a b : ℕ}, i.Holds (a * 10 ^ grid) → i.Holds (b * 10 ^ grid) → a ≤ b := by
    intro a b ha hb
    by_contra hlt
    have hnext : ((b + 1 : ℕ) : ℚ) ≤ a := Nat.cast_le.mpr (Nat.lt_of_not_le hlt)
    have hscaled := mul_le_mul_of_nonneg_right hnext hstep.le
    have := ha.le_high
    have := hb.low_le
    push_cast at hscaled
    linarith
  exact le_antisymm (hle hm hn) (hle hn hm)

theorem Interval.covers_floor_or_next (hlow : i.low ≤ i.middle) (hhigh : i.middle ≤ i.high)
    (hcoarse : i.high < i.low + i.denominator) {n : ℕ} (hn : i.covers n) :
    i.covers (i.middle / i.denominator) ∨ i.covers (i.middle / i.denominator + 1) := by
  have hpoint : i.low ≤ n * i.denominator ∧ n * i.denominator ≤ i.high := by
    rw [covers] at hn
    split at hn <;> simp only [Bool.and_eq_true, decide_eq_true_eq] at hn <;> omega
  have hfloor := Nat.div_mul_le_self i.middle i.denominator
  have hnext := Nat.lt_div_mul_add (a := i.middle) (b := i.denominator) (by omega)
  generalize i.middle / i.denominator = down at *
  have hge : down ≤ n := by
    by_contra hlt
    have := Nat.mul_le_mul_right i.denominator (Nat.lt_of_not_le hlt)
    rw [Nat.succ_mul] at this
    omega
  have hle : n ≤ down + 1 := by
    by_contra hlt
    have := Nat.mul_le_mul_right i.denominator (Nat.lt_of_not_le hlt)
    rw [Nat.succ_mul, Nat.succ_mul] at this
    omega
  rcases Nat.eq_or_lt_of_le hge with rfl | hlt
  · exact .inl hn
  · obtain rfl : n = down + 1 := by omega
    exact .inr hn

theorem Interval.nearest?_ne_none (hlow : i.low ≤ i.middle) (hhigh : i.middle ≤ i.high)
    (hcoarse : (i.high : ℚ) - i.low < 10 ^ grid * i.denominator) {n : ℕ}
    (hn : i.Holds (n * 10 ^ grid)) (tie : DigitTie) : (i.onGrid grid).nearest? tie ≠ none := by
  obtain ⟨c, hc, hgridlow, hgridmiddle, hgridhigh, hgrid, _⟩ := i.onGrid_scaled grid
  have hgridcoarse : (i.onGrid grid).high < (i.onGrid grid).low + (i.onGrid grid).denominator := by
    have := mul_lt_mul_of_pos_right hcoarse hc
    rw [sub_mul, ← hgridlow, ← hgridhigh, ← hgrid] at this
    have hcast : ((i.onGrid grid).high : ℚ) <
        ((i.onGrid grid).low + (i.onGrid grid).denominator : ℕ) := by
      push_cast
      linarith
    exact_mod_cast hcast
  have hordered : (i.onGrid grid).low ≤ (i.onGrid grid).middle ∧
      (i.onGrid grid).middle ≤ (i.onGrid grid).high := by
    rw [← Nat.cast_le (α := ℚ), ← Nat.cast_le (α := ℚ), hgridlow, hgridmiddle, hgridhigh]
    exact ⟨mul_le_mul_of_nonneg_right (Nat.cast_le.mpr hlow) hc.le,
      mul_le_mul_of_nonneg_right (Nat.cast_le.mpr hhigh) hc.le⟩
  intro hnone
  obtain ⟨hdown, hup⟩ := Interval.nearest?_eq_none hnone
  rcases Interval.covers_floor_or_next hordered.1 hordered.2 hgridcoarse
    ((Interval.covers_onGrid_iff n).mpr hn) with h | h
  · rw [hdown] at h
    cases h
  · rw [hup] at h
    cases h

/-- A point of the interval on a grid that is coarser than the interval is wide is what the search
finds, on this grid or before it. -/
theorem search_toRat_of_coarse (hden : 0 < i.denominator) (hlow : i.low ≤ i.middle)
    (hhigh : i.middle ≤ i.high) (hcoarse : (i.high : ℚ) - i.low < 10 ^ grid * i.denominator) {n : ℕ}
    (hn : i.Holds (n * 10 ^ grid)) (tie : DigitTie) (fuel : ℕ) (hle : grid ≤ exponent)
    (hfuel : exponent < grid + fuel) :
    (search i tie fuel exponent).toRat = n * 10 ^ grid := by
  induction fuel generalizing exponent with
  | zero => omega
  | succ fuel ih =>
    rw [search]
    split
    · rename_i found hfound
      -- What is found on a coarser grid is a point of this one.
      obtain ⟨k, rfl⟩ : ∃ k : ℕ, exponent = grid + k := ⟨(exponent - grid).toNat, by omega⟩
      have hsplit : (found : ℚ) * 10 ^ (grid + (k : ℤ)) = (found * 10 ^ k : ℕ) * 10 ^ grid := by
        rw [zpow_add₀ (by norm_num), zpow_natCast]
        push_cast
        ring
      have hholds := (Interval.covers_onGrid_iff found).mp (Interval.covers_of_nearest? hfound)
      rw [hsplit] at hholds
      rw [DecimalDigits.toRat, hsplit, hholds.eq_of_coarse hden hcoarse hn]
    · rename_i hnone
      rcases eq_or_lt_of_le hle with rfl | hlt
      · exact absurd hnone (Interval.nearest?_ne_none hlow hhigh hcoarse hn tie)
      · exact ih (by omega) (by push_cast at hfuel; omega)

end Coarse

end Binary.Shortest

/-! ### Two formats -/

namespace BinaryFormat

open Binary.Shortest

variable {f g : BinaryFormat} {k m n : ℕ}

theorem five_mul_le_topExponent (hfraction : 2 * f.fractionBits ≤ 100000) (n : ℕ) :
    5 * (n : ℚ) ≤ 10 ^ topExponent f n * 2 ^ f.fractionBits := by
  have hpower := le_ten_zpow_div (a := 30103) (c := 100000)
    (n := (n.log2 + 1 : ℕ) - (f.fractionBits : ℤ)) (by decide) (by decide +kernel)
    (by decide +kernel) (by omega)
  have htop : topExponent f n = ((n.log2 + 1 : ℕ) - (f.fractionBits : ℤ)) * (30103 : ℕ) /
      (100000 : ℕ) + 1 + 1 := by
    rw [add_assoc]
    rfl
  have htwo : (2 : ℚ) ^ ((n.log2 + 1 : ℕ) - (f.fractionBits : ℤ) - 1) * 2 ^ f.fractionBits =
      2 ^ n.log2 := by
    rw [← zpow_natCast, ← zpow_natCast, ← zpow_add₀ (by norm_num)]
    congr 1
    push_cast
    ring
  have hlog : (n : ℚ) ≤ 2 * 2 ^ n.log2 := by
    have : n ≤ 2 * 2 ^ n.log2 := by
      rw [← Nat.pow_succ']
      exact Nat.lt_log2_self.le
    exact_mod_cast this
  rw [htop, zpow_add_one₀ (by norm_num)]
  calc 5 * (n : ℚ) ≤ 2 ^ n.log2 * 10 := by linarith
    _ = 2 ^ ((n.log2 + 1 : ℕ) - (f.fractionBits : ℤ) - 1) * 10 * 2 ^ f.fractionBits := by
      rw [mul_right_comm, htwo]
    _ ≤ _ := by gcongr

theorem lt_gap_mul_two_pow (f : BinaryFormat) (n : ℕ) : n < f.gap n * 2 ^ f.precision :=
  Nat.lt_log2_self.trans_le (f.two_pow_le_gap_mul n)

theorem gap_mul_two_pow_le (h : 2 ^ f.precision ≤ 2 * n) : f.gap n * 2 ^ f.precision ≤ 2 * n := by
  rcases Nat.eq_zero_or_pos n with rfl | hpos
  · have := Nat.two_pow_pos f.precision
    omega
  have hself := Nat.log2_self_le hpos.ne'
  have hle : f.precision < n.log2 + 2 := by
    refine (Nat.pow_lt_pow_iff_right (a := 2) (by decide)).mp ?_
    have : n < 2 ^ (n.log2 + 1) := Nat.lt_log2_self
    rw [Nat.pow_succ 2 (n.log2 + 1)]
    omega
  rw [gap, spacing, ← pow_add, Nat.sub_add_cancel (by omega), Nat.pow_succ]
  omega

theorem high_sub_low (hn : f.Fits n) (hpos : 0 < n) :
    ((Interval.around f n).high : ℚ) - (Interval.around f n).low =
      f.gapBelow n + 2 * f.gap n := by
  rw [← middle_sub_low hn hpos, around_eq]
  push_cast
  ring

theorem gap_lt_ten_exponent (hfraction : 2 * f.fractionBits ≤ 100000) (hn : f.Fits n)
    (hpos : 0 < n) :
    (f.gap n : ℚ) <
      10 ^ ((f.shortestDigits .larger n).exponent + 1) * (4 * 2 ^ f.fractionBits : ℕ) := by
  have hgap : (f.gap n : ℚ) ≤ n := Nat.cast_le.mpr (Nat.le_of_dvd hpos hn.gap_dvd)
  have hnpos : (0 : ℚ) < n := Nat.cast_pos.mpr hpos
  rw [shortestDigits, if_neg hpos.ne']
  rcases search_exponent (i := Interval.around f n) (by simp [around_eq])
    (by simp [around_eq, gap_pos]) .larger f.precision (topExponent f n) with htop | hend
  · have hfive := five_mul_le_topExponent hfraction n
    rw [htop, zpow_add_one₀ (by norm_num)]
    push_cast
    linarith
  · rw [middle_sub_low hn hpos] at hend
    refine lt_of_le_of_lt ?_ hend
    exact_mod_cast f.gap_le_gapBelow n

theorem holds_bounds (hn : f.Fits n) (hpos : 0 < n) {x : ℚ} (h : (Interval.around f n).Holds x) :
    2 * (n : ℚ) ≤ x * (4 * 2 ^ f.fractionBits : ℕ) ∧
      x * (4 * 2 ^ f.fractionBits : ℕ) ≤ 6 * n := by
  have hlow := h.low_le
  have hhigh := h.le_high
  have hbelow : (f.gapBelow n : ℚ) ≤ 2 * n := by exact_mod_cast gapBelow_le_two_mul hn hpos
  have hgap : (f.gap n : ℚ) ≤ n := Nat.cast_le.mpr (Nat.le_of_dvd hpos hn.gap_dvd)
  have hmiddle := middle_sub_low hn hpos
  rw [around_eq] at hlow hhigh hmiddle
  push_cast at *
  constructor <;> linarith

/-- A wider format that has so many more bits that it tells apart all digits of the first. -/
structure Refines (f g : BinaryFormat) (halvings : ℕ) : Prop extends f.Widens g halvings where
  narrow : f.Searchable
  wide : g.Searchable
  digits : f.precision + 8 ≤ g.precision
  /-- The least magnitude of the first format has all bits of a significand in the wider one. -/
  normal : g.precision + 1 ≤ halvings
  range : f.magnitudeBits + halvings + 2 ≤ g.magnitudeBits
  fraction : 2 * g.fractionBits ≤ 100000

theorem single_refines_double : single.Refines double 925 where
  toWidens := single_widens_double
  narrow := single_searchable
  wide := double_searchable
  digits := by decide
  normal := by decide
  range := by decide
  fraction := by decide

namespace Refines

variable (h : f.Refines g k)
include h

theorem narrow_fraction : 2 * f.fractionBits ≤ 100000 := by
  have := h.fraction
  have := h.fractionBits
  omega

theorem significands_le : (256 : ℚ) * 2 ^ f.precision ≤ 2 ^ g.precision := by
  have hle : 2 ^ (8 + f.precision) ≤ 2 ^ g.precision :=
    Nat.pow_le_pow_right (by decide) (by have := h.digits; omega)
  rw [pow_add] at hle
  exact_mod_cast hle

theorem significand_le_unit : (2 : ℚ) * 2 ^ g.precision ≤ 2 ^ k := by
  have hle : 2 ^ (1 + g.precision) ≤ 2 ^ k :=
    Nat.pow_le_pow_right (by decide) (by have := h.normal; omega)
  rw [pow_add] at hle
  exact_mod_cast hle

end Refines

theorem grid_le_shortestValue (hf : f.Searchable) (hn : f.Fits n) (hpos : 0 < n) :
    (10 : ℚ) ^ (f.shortestDigits .larger n).exponent ≤ f.shortestValue n := by
  have hgrid : (0 : ℚ) < 10 ^ (f.shortestDigits .larger n).exponent := by positivity
  have : (1 : ℚ) ≤ (f.shortestDigits .larger n).digits := by
    exact_mod_cast shortestDigits_digits_pos hf hn hpos .larger
  rw [shortestValue, DecimalDigits.toRat]
  exact le_mul_of_one_le_left hgrid.le this

theorem Refines.gap_lt_grid (h : f.Refines g k) (hn : f.Fits n) (hnpos : 0 < n) (hm : g.Fits m)
    (hmpos : 0 < m) (hholds : (Interval.around g m).Holds (f.shortestValue n)) :
    (g.gap m : ℚ) < 10 ^ (f.shortestDigits .larger n).exponent * 2 ^ g.fractionBits := by
  obtain ⟨hnlow, hnhigh⟩ := holds_bounds hn hnpos (holds_shortestValue h.narrow hn hnpos)
  obtain ⟨hmlow, hmhigh⟩ := holds_bounds hm hmpos hholds
  have hgap := gap_lt_ten_exponent h.narrow_fraction hn hnpos
  rw [zpow_add_one₀ (by norm_num)] at hgap
  have hsignificand : (n : ℚ) < f.gap n * 2 ^ f.precision := by
    exact_mod_cast f.lt_gap_mul_two_pow n
  have hscale : (4 * 2 ^ g.fractionBits : ℕ) = (4 * 2 ^ f.fractionBits) * 2 ^ k := by
    rw [h.fractionBits, pow_add, mul_assoc]
  have hbits := h.significands_le
  have hwide := h.significand_le_unit
  have hone : (1 : ℚ) ≤ n := by exact_mod_cast hnpos
  have hunits : (0 : ℚ) < 2 ^ k := by positivity
  rw [hscale, Nat.cast_mul, ← mul_assoc] at hmlow hmhigh
  push_cast at *
  have hmn : 2 * (m : ℚ) ≤ 6 * n * 2 ^ k :=
    hmlow.trans (mul_le_mul_of_nonneg_right hnhigh hunits.le)
  have hnm : 2 * (n : ℚ) * 2 ^ k ≤ 6 * m :=
    (mul_le_mul_of_nonneg_right hnlow hunits.le).trans hmhigh
  have hnormal : (g.gap m : ℚ) * 2 ^ g.precision ≤ 2 * m := by
    have hone' := mul_le_mul_of_nonneg_right hone hunits.le
    have hprecision : (2 : ℚ) ^ g.precision ≤ 2 * m := by linarith
    have hprecision : 2 ^ g.precision ≤ 2 * m := by exact_mod_cast hprecision
    exact_mod_cast gap_mul_two_pow_le hprecision
  -- A gap is a significand's part of the magnitude in either format, and the digits have spent a
  -- factor of 40 at most of the bits that the wider one has more.
  refine lt_of_mul_lt_mul_right ?_ (show (0 : ℚ) ≤ 2 ^ g.precision by positivity)
  set grid : ℚ := 10 ^ (f.shortestDigits .larger n).exponent
  have hgrid : 0 < grid := by positivity
  calc (g.gap m : ℚ) * 2 ^ g.precision ≤ 6 * n * 2 ^ k := hnormal.trans hmn
    _ < 6 * (f.gap n * 2 ^ f.precision) * 2 ^ k := by gcongr
    _ ≤ 6 * (grid * 10 * (4 * 2 ^ f.fractionBits) * 2 ^ f.precision) * 2 ^ k := by gcongr
    _ ≤ grid * (2 ^ f.fractionBits * 2 ^ k) * (256 * 2 ^ f.precision) := by
      have : 0 < grid * (2 ^ f.fractionBits * 2 ^ k) * 2 ^ f.precision := by positivity
      linarith
    _ ≤ grid * 2 ^ g.fractionBits * 2 ^ g.precision := by
      rw [h.fractionBits, pow_add]
      gcongr

/-- A number of the wider format that is read from shortest digits has these digits itself. -/
theorem Refines.shortestValue_eq (h : f.Refines g k) (hn : f.Fits n) (hnpos : 0 < n) (hm : g.Fits m)
    (hmpos : 0 < m) (hholds : (Interval.around g m).Holds (f.shortestValue n)) :
    g.shortestValue m = f.shortestValue n := by
  obtain ⟨hnlow, hnhigh⟩ := holds_bounds hn hnpos (holds_shortestValue h.narrow hn hnpos)
  obtain ⟨hmlow, hmhigh⟩ := holds_bounds hm hmpos hholds
  have hcoarse := h.gap_lt_grid hn hnpos hm hmpos hholds
  have hlast := h.wide.last_grid_le hm hmpos
  have hfirst := five_mul_le_topExponent h.fraction m
  have hgaps : (g.gapBelow m : ℚ) ≤ 2 * g.gap m := by exact_mod_cast g.gapBelow_le m
  have hpos : 0 < f.shortestValue n := shortestValue_pos h.narrow hn hnpos
  have hunit : (0 : ℚ) < 2 ^ g.fractionBits := by positivity
  have hgrid := grid_le_shortestValue h.narrow hn hnpos
  push_cast at hmhigh hlast
  rw [shortestValue, shortestDigits, if_neg hmpos.ne']
  -- The grid of the digits is coarser than the interval, and the search comes to it.
  refine search_toRat_of_coarse ?_ ?_ ?_ ?_ hholds .larger g.precision ?_ ?_
  · simp [around_eq]
  · simp [around_eq]
  · simp [around_eq]
  · rw [high_sub_low hm hmpos, around_eq]
    push_cast
    linarith
  · refine (zpow_lt_zpow_iff_right₀ (a := (10 : ℚ)) (by norm_num)).mp ?_ |>.le
    refine lt_of_mul_lt_mul_right ?_ hunit.le
    have := mul_le_mul_of_nonneg_right hgrid hunit.le
    have := mul_pos hpos hunit
    linarith
  · rw [← sub_lt_iff_lt_add]
    refine (zpow_lt_zpow_iff_right₀ (a := (10 : ℚ)) (by norm_num)).mp ?_
    refine lt_of_mul_lt_mul_right ?_ hunit.le
    have : 0 < (10 : ℚ) ^ (topExponent g m - g.precision) * 2 ^ g.fractionBits := by positivity
    linarith

theorem digits_lt (hf : f.Searchable) (hfraction : 2 * f.fractionBits ≤ 100000) (hn : f.Fits n)
    (hpos : 0 < n) : (f.shortestDigits .larger n).digits < 60 * 2 ^ f.precision := by
  obtain ⟨-, hhigh⟩ := holds_bounds hn hpos (holds_shortestValue hf hn hpos)
  have hgap := gap_lt_ten_exponent hfraction hn hpos
  have hsignificand : (n : ℚ) < f.gap n * 2 ^ f.precision := by
    exact_mod_cast f.lt_gap_mul_two_pow n
  rw [zpow_add_one₀ (by norm_num)] at hgap
  rw [shortestValue, DecimalDigits.toRat] at hhigh
  push_cast at hgap hhigh
  have hstep : (0 : ℚ) < 10 ^ (f.shortestDigits .larger n).exponent * 2 ^ f.fractionBits := by
    positivity
  have hscaled := mul_lt_mul_of_pos_right hgap (show (0 : ℚ) < 2 ^ f.precision by positivity)
  have hlt : ((f.shortestDigits .larger n).digits : ℚ) < 60 * 2 ^ f.precision := by
    refine lt_of_mul_lt_mul_right ?_ hstep.le
    linarith
  exact_mod_cast hlt

theorem neg_exponent_lt (hfraction : 2 * f.fractionBits ≤ 100000) (hn : f.Fits n) (hpos : 0 < n) :
    -(f.shortestDigits .larger n).exponent < f.fractionBits + 6 := by
  have hgap := gap_lt_ten_exponent hfraction hn hpos
  have hone : (1 : ℚ) ≤ f.gap n := by exact_mod_cast f.gap_pos n
  rw [zpow_add_one₀ (by norm_num)] at hgap
  push_cast at hgap
  by_contra hle
  obtain ⟨places, hplaces⟩ : ∃ places : ℕ, (f.shortestDigits .larger n).exponent = -places :=
    ⟨(f.shortestDigits .larger n).exponent.natAbs, by omega⟩
  have hpow : (2 : ℚ) ^ (f.fractionBits + 6) ≤ 10 ^ places :=
    (pow_le_pow_right₀ (by norm_num) (by omega)).trans
      (pow_le_pow_left₀ (by norm_num) (by norm_num) places)
  have hinverse : (10 : ℚ) ^ (-(places : ℤ)) * 10 ^ places = 1 := by
    rw [← zpow_natCast, ← zpow_add₀ (by norm_num), neg_add_cancel, zpow_zero]
  rw [hplaces] at hgap
  have hscaled := mul_lt_mul_of_pos_right hgap (show (0 : ℚ) < 10 ^ places by positivity)
  have hfactor : (10 : ℚ) ^ (-(places : ℤ)) * 10 * (4 * 2 ^ f.fractionBits) * 10 ^ places =
      40 * 2 ^ f.fractionBits := by
    calc _ = 40 * 2 ^ f.fractionBits * ((10 : ℚ) ^ (-(places : ℤ)) * 10 ^ places) := by ring
      _ = _ := by rw [hinverse, mul_one]
  rw [hfactor] at hscaled
  rw [pow_add] at hpow
  have hunit : (0 : ℚ) < 2 ^ f.fractionBits := by positivity
  have := mul_le_mul_of_nonneg_right hone (show (0 : ℚ) ≤ 10 ^ places by positivity)
  linarith

end BinaryFormat

/-! ### Reading digits -/

namespace Binary

variable {f g : BinaryFormat} {k n numerator denominator : ℕ}

theorem scaled_bounds (h : f.Refines g k) (hn : f.Fits n) (hnpos : 0 < n) :
    1 ≤ f.shortestValue n * 2 ^ g.fractionBits ∧
      f.shortestValue n * 2 ^ g.fractionBits < 2 ^ (f.magnitudeBits + k + 1) := by
  obtain ⟨hlow, hhigh⟩ := BinaryFormat.holds_bounds hn hnpos
    (BinaryFormat.holds_shortestValue h.narrow hn hnpos)
  have hunits : (2 : ℚ) ≤ 2 ^ k := by
    have hone : (1 : ℚ) ≤ 2 ^ g.precision := one_le_pow₀ (by norm_num)
    have := h.significand_le_unit
    linarith
  have hone : (1 : ℚ) ≤ n := by exact_mod_cast hnpos
  have hbound : (n : ℚ) < 2 ^ f.magnitudeBits := by exact_mod_cast hn.1
  push_cast at hlow hhigh
  rw [h.fractionBits, pow_add, pow_succ, pow_add]
  constructor
  · have := mul_le_mul hlow hunits (by norm_num) (by linarith)
    linarith
  · have hinterval : f.shortestValue n * (4 * 2 ^ f.fractionBits) < 8 * 2 ^ f.magnitudeBits := by
      linarith
    have := mul_lt_mul_of_pos_right hinterval (by linarith : (0 : ℚ) < 2 ^ k)
    linarith

theorem ofRatio_shortestValue (h : f.Refines g k) (hn : f.Fits n) (hnpos : 0 < n)
    (hpos : 0 < denominator) (hratio : f.shortestValue n * denominator = numerator)
    (negative : Bool) :
    ∃ (m : ℕ) (fits : g.Fits m), ofRatio negative numerator denominator = finite negative m fits ∧
      g.shortestValue m = f.shortestValue n := by
  obtain ⟨hone, hbound⟩ := scaled_bounds h hn hnpos
  have hscale : (0 : ℚ) < denominator := Nat.cast_pos.mpr hpos
  have hvalue : f.shortestValue n * 2 ^ g.fractionBits * denominator =
      (numerator * Nat.pow 2 g.fractionBits : ℕ) := by
    rw [Nat.cast_mul, ← hratio, Nat.pow_eq]
    push_cast
    ring
  have hle : denominator ≤ numerator * Nat.pow 2 g.fractionBits := by
    have := mul_le_mul_of_nonneg_right hone hscale.le
    rw [one_mul, hvalue] at this
    exact_mod_cast this
  have hlt : numerator * Nat.pow 2 g.fractionBits <
      2 ^ (f.magnitudeBits + k + 1) * denominator := by
    have := mul_lt_mul_of_pos_right hbound hscale
    rw [hvalue] at this
    exact_mod_cast this
  have hprecision : 2 ≤ g.precision := by
    have := h.digits
    omega
  have hrounds := BinaryFormat.roundsTo_roundUnits (f := g) (by omega) hpos hle
  have hfits := hrounds.fits (by omega) (by
    have := (Nat.log2_lt (Nat.div_pos hle hpos).ne').mpr ((Nat.div_lt_iff_lt_mul hpos).mpr hlt)
    have := h.range
    omega)
  have hmpos := (Nat.two_pow_pos _).trans_le hrounds.low
  refine ⟨_, hfits, by rw [ofRatio, ofUnits, dif_pos hfits], ?_⟩
  exact h.shortestValue_eq hn hnpos hfits hmpos (hrounds.holds hprecision hvalue)

end Binary

namespace Decimal

theorem toDouble_eq_ofRatio {d : Decimal} (hzero : d.unscaled ≠ 0) (hscale : 0 ≤ d.scale)
    (hdigits : 0 < d.scale → d.unscaled.natAbs < 2 ^ 82) (hplaces : d.scale ≤ 1076) :
    d.toDouble =
      Binary.ofRatio (d.unscaled < 0) d.unscaled.natAbs (Nat.pow 10 d.scale.natAbs) := by
  rw [toDouble, if_neg (by simpa [isZero] using hzero)]
  split
  · rename_i hintegral
    rw [hintegral]
    rfl
  · rename_i hplaced
    have hpos : 0 < d.scale := lt_of_le_of_ne hscale (Ne.symm hplaced)
    have hbits : d.unscaled.natAbs.log2 < 82 := (Nat.log2_lt (by omega)).mpr (hdigits hpos)
    have hcuts : ((d.unscaled.natAbs.log2 + 1 + 1) * 30102999566398120 / 100000000000000000 -
        significantDigits) / digitsCut = 0 := by
      rw [significantDigits, digitsCut]
      omega
    simp only [hcuts, Nat.mul_zero, Nat.pow_eq, pow_zero, Nat.div_one, Nat.cast_zero, sub_zero,
      if_pos hpos]
    rw [Binary.ofDigits, if_neg (by omega), if_neg (by omega), if_neg ?_]
    · rfl
    · have hfraction : BinaryFormat.double.fractionBits = 1074 := rfl
      omega

theorem ofBinary?_finite {f : BinaryFormat} {negative : Bool} {n : ℕ} {fits : f.Fits n}
    (hf : f.Searchable) (hfraction : 2 * f.fractionBits ≤ 100000) (hpos : 0 < n) {d : Decimal}
    (h : ofBinary? (.finite negative n fits) = some d) :
    ∃ (u t : ℕ), d = ⟨if negative then -u else u, t⟩ ∧ 0 < u ∧ f.shortestValue n * 10 ^ t = u ∧
      (0 < t → u < 60 * 2 ^ f.precision) ∧ t < f.fractionBits + 6 := by
  have hvalue := BinaryFormat.shortestValue_pos hf fits hpos
  have hdigits := BinaryFormat.digits_lt hf hfraction fits hpos
  have hplaces := BinaryFormat.neg_exponent_lt hfraction fits hpos
  obtain rfl := Option.some.inj h
  rw [BinaryFormat.shortestValue, DecimalDigits.toRat] at hvalue
  rw [BinaryFormat.shortestValue, DecimalDigits.toRat]
  set shortest := f.shortestDigits .larger n
  have hgrid : (0 : ℚ) < 10 ^ shortest.exponent := by positivity
  have hdigitspos : 0 < shortest.digits := by exact_mod_cast pos_of_mul_pos_left hvalue hgrid.le
  by_cases hexponent : 0 ≤ shortest.exponent
  · refine ⟨shortest.digits * 10 ^ shortest.exponent.natAbs, 0, ?_, by positivity, ?_, by simp,
      by omega⟩
    · simp only [if_pos hexponent, neg]
      cases negative <;> rfl
    · have hpow : (10 : ℚ) ^ shortest.exponent = 10 ^ shortest.exponent.natAbs := by
        rw [← zpow_natCast, Int.natAbs_of_nonneg hexponent]
      rw [hpow]
      push_cast
      ring
  · refine ⟨shortest.digits, shortest.exponent.natAbs, ?_, hdigitspos, ?_, fun _ => hdigits,
      by omega⟩
    · simp only [if_neg hexponent, neg]
      rw [Int.ofNat_natAbs_of_nonpos (by omega)]
      cases negative <;> rfl
    · rw [mul_assoc, ← zpow_natCast, ← zpow_add₀ (by norm_num),
        Int.ofNat_natAbs_of_nonpos (by omega), add_neg_cancel, zpow_zero, mul_one]

theorem scaleFits_of_ofBinary? {f : BinaryFormat} (hf : f.Searchable)
    (hfraction : 2 * f.fractionBits ≤ 100000) {x : Binary f} {d : Decimal}
    (h : ofBinary? x = some d) : scaleFits d.scale := by
  cases x with
  | nan | infinite => cases h
  | finite negative n fits =>
    rcases Nat.eq_zero_or_pos n with rfl | hpos
    · obtain rfl := Option.some.inj h
      cases negative <;> rfl
    · obtain ⟨u, t, rfl, -, -, -, hplaces⟩ := ofBinary?_finite hf hfraction hpos h
      have hmin : Int64.minValue.toInt ≤ 0 := by decide
      have hmax : (100000 : Int) ≤ Int64.maxValue.toInt := by decide
      simp only [scaleFits, Bool.and_eq_true, decide_eq_true_eq]
      omega

theorem toDouble_of_single {negative : Bool} {n : ℕ} {fits : BinaryFormat.single.Fits n}
    (hpos : 0 < n) {d : Decimal} (h : ofBinary? (.finite negative n fits) = some d) :
    ∃ (m : ℕ) (fits' : BinaryFormat.double.Fits m), d.toDouble = .finite negative m fits' ∧
      BinaryFormat.double.shortestValue m = BinaryFormat.single.shortestValue n := by
  have hrefines := BinaryFormat.single_refines_double
  obtain ⟨u, t, rfl, hu, hratio, hdigits, hplaces⟩ :=
    ofBinary?_finite hrefines.narrow hrefines.narrow_fraction hpos h
  have hunscaled : (if negative then -u else u : ℤ).natAbs = u := by cases negative <;> simp
  have hsign : decide ((if negative then -u else u : ℤ) < 0) = negative := by
    cases negative
    · simp
    · simpa using hu
  have hfraction : BinaryFormat.single.fractionBits = 149 := rfl
  rw [toDouble_eq_ofRatio (by simp only; omega) (Int.natCast_nonneg t) (fun ht => ?_)
    (by simp only; omega)]
  · simp only [hunscaled, hsign, Int.natAbs_natCast]
    exact Binary.ofRatio_shortestValue hrefines fits hpos (Nat.pow_pos (by decide))
      (by exact_mod_cast hratio) negative
  · simp only [hunscaled]
    exact (hdigits (by simpa using ht)).trans (by decide)

/-- A single and the double that is read from its shortest digits have the same digits. -/
theorem toDouble_ofBinary? {x : Single} {d : Decimal} (h : ofBinary? x = some d) :
    ∃ d', ofBinary? d.toDouble = some d' ∧ d'.toRat = d.toRat := by
  cases x with
  | nan | infinite => cases h
  | finite negative n fits =>
    rcases Nat.eq_zero_or_pos n with rfl | hpos
    · have hrat := toRat_ofBinary? h
      obtain rfl := Option.some.inj h
      refine ⟨⟨0, 0⟩, by cases negative <;> rfl, ?_⟩
      rw [hrat]
      cases negative <;> simp [toRat, BinaryFormat.signedValue]
    · obtain ⟨m, hm, hread, hsame⟩ := toDouble_of_single hpos h
      obtain ⟨d', hd'⟩ : ∃ d', ofBinary? (.finite negative m hm) = some d' := ⟨_, rfl⟩
      refine ⟨d', hread ▸ hd', ?_⟩
      rw [toRat_ofBinary? hd', toRat_ofBinary? h]
      cases negative <;> simp [hsame]

end Decimal

end ObjectQuery
