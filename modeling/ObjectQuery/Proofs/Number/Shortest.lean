import Mathlib.Data.Int.ConditionallyCompleteOrder
import Mathlib.Data.Nat.Log
import Mathlib.Tactic.Linarith
import Mathlib.Tactic.Ring
import ObjectQuery.Proofs.Number.Decimal

/-!
The shortest digits of a binary number lie among the numbers that round to it. Main statement: the
shortest digits of the numbers of one format are ordered as these are.
-/

namespace ObjectQuery

namespace BinaryFormat

variable {f : BinaryFormat} {m n : ℕ}

/-- The distance from a magnitude to the next one. -/
def gap (f : BinaryFormat) (units : ℕ) : ℕ := 2 ^ f.spacing units

theorem gap_pos (f : BinaryFormat) (units : ℕ) : 0 < f.gap units := Nat.two_pow_pos _

theorem Fits.gap_dvd (h : f.Fits n) : f.gap n ∣ n := h.2

theorem log2_mono (h : m ≤ n) : m.log2 ≤ n.log2 := by
  rw [Nat.log2_eq_log_two, Nat.log2_eq_log_two]
  exact Nat.log_mono_right h

theorem gap_dvd_gap (f : BinaryFormat) (h : m ≤ n) : f.gap m ∣ f.gap n := by
  refine Nat.pow_dvd_pow 2 ?_
  have := log2_mono h
  simp only [spacing]
  omega

theorem add_le_of_dvd {d : ℕ} (hm : d ∣ m) (hn : d ∣ n) (hlt : m < n) : m + d ≤ n := by
  have := Nat.le_of_dvd (Nat.sub_pos_of_lt hlt) (Nat.dvd_sub hn hm)
  omega

theorem add_gap_le (hm : f.Fits m) (hn : f.Fits n) (hlt : m < n) : m + f.gap m ≤ n :=
  add_le_of_dvd hm.gap_dvd ((f.gap_dvd_gap hlt.le).trans hn.gap_dvd) hlt

theorem not_even_of_neighbour (hm : f.Fits m) (hn : f.Fits n) (heq : n = m + f.gap m)
    (hmeven : m / f.gap m % 2 = 0) : n / f.gap n % 2 ≠ 0 := by
  obtain ⟨a, ha⟩ := hm.gap_dvd
  obtain ⟨b, hb⟩ := hn.gap_dvd
  obtain ⟨c, hc⟩ := f.gap_dvd_gap (m := m) (n := n) (by omega)
  have hmdiv : m / f.gap m = a := by
    nth_rewrite 1 [ha]
    exact Nat.mul_div_cancel_left a (f.gap_pos m)
  have hndiv : n / f.gap n = b := by
    nth_rewrite 1 [hb]
    exact Nat.mul_div_cancel_left b (f.gap_pos n)
  have hmul : f.gap m * (a + 1) = f.gap m * (c * b) := by
    rw [Nat.mul_add, Nat.mul_one, ← ha, ← heq, ← Nat.mul_assoc, ← hc, ← hb]
  have hodd : a + 1 = c * b := Nat.eq_of_mul_eq_mul_left (f.gap_pos m) hmul
  rw [hmdiv] at hmeven
  rw [hndiv]
  intro hbeven
  have := Nat.mul_mod c b 2
  rw [hbeven, Nat.mul_zero, Nat.zero_mod] at this
  omega

/-- Twice the distance from a positive magnitude to the one before. -/
def gapBelow (f : BinaryFormat) (units : ℕ) : ℕ :=
  if units == Nat.pow 2 units.log2 && decide (1 < f.gap units) then f.gap units else 2 * f.gap units

theorem gap_le_gapBelow (f : BinaryFormat) (units : ℕ) : f.gap units ≤ f.gapBelow units := by
  rw [gapBelow]
  split <;> omega

theorem gapBelow_le (f : BinaryFormat) (units : ℕ) : f.gapBelow units ≤ 2 * f.gap units := by
  rw [gapBelow]
  split <;> omega

theorem lt_two_pow_of_log2_lt {k : ℕ} (h : m.log2 < k) : m < 2 ^ k :=
  Nat.lt_log2_self.trans_le (Nat.pow_le_pow_right (by decide) h)

theorem add_halfGap_le (hp : 0 < f.precision) (hm : f.Fits m) (hspacing : 0 < f.spacing n)
    (hlog : m.log2 < n.log2) : m + 2 ^ (f.spacing n - 1) ≤ 2 ^ n.log2 := by
  have hle : f.spacing n - 1 ≤ n.log2 - 1 := by
    simp only [spacing]
    omega
  rcases Nat.eq_or_lt_of_le hlog with hnear | hfar
  · have hgap : f.gap m = 2 ^ (f.spacing n - 1) := by
      rw [gap, spacing, spacing, ← hnear]
      congr 1
      omega
    refine add_le_of_dvd (hgap ▸ hm.gap_dvd) (Nat.pow_dvd_pow 2 ?_) (lt_two_pow_of_log2_lt hlog)
    omega
  · have hmhalf : m < 2 ^ (n.log2 - 1) := lt_two_pow_of_log2_lt (by omega)
    have hgap : 2 ^ (f.spacing n - 1) ≤ 2 ^ (n.log2 - 1) := Nat.pow_le_pow_right (by decide) hle
    have hhalf := Nat.two_pow_pred_mul_two (w := n.log2) (by omega)
    omega

theorem two_mul_add_gapBelow_le (hp : 0 < f.precision) (hm : f.Fits m) (hn : f.Fits n)
    (hlt : m < n) : 2 * m + f.gapBelow n ≤ 2 * n := by
  have hnext := add_gap_le hm hn hlt
  rcases Nat.eq_or_lt_of_le (log2_mono hlt.le) with hlog | hlog
  · -- Within one binade the gaps are the same.
    have hgap : f.gap m = f.gap n := by rw [gap, gap, spacing, spacing, hlog]
    have := f.gapBelow_le n
    omega
  have hmpower : m < 2 ^ n.log2 := lt_two_pow_of_log2_lt hlog
  have hpower : 2 ^ n.log2 ≤ n := Nat.log2_self_le (by omega)
  rw [gapBelow]
  split
  · rename_i hcond
    simp only [Nat.pow_eq, Bool.and_eq_true, beq_iff_eq, decide_eq_true_eq] at hcond
    have hspacing : 0 < f.spacing n := by
      refine Nat.pos_of_ne_zero fun hzero => ?_
      simp [gap, hzero] at hcond
    have hgap : f.gap n = 2 ^ (f.spacing n - 1) * 2 := (Nat.two_pow_pred_mul_two hspacing).symm
    have := add_halfGap_le hp hm hspacing hlog
    omega
  · rename_i hcond
    rcases Nat.eq_or_lt_of_le hpower with heq | hlt'
    · have hgap : ¬ 1 < f.gap n := by
        intro hgap
        exact hcond (by simp [heq, hgap])
      omega
    · have hdvd : f.gap n ∣ 2 ^ n.log2 := by
        refine Nat.pow_dvd_pow 2 ?_
        simp only [spacing]
        omega
      have := add_le_of_dvd hdvd hn.gap_dvd hlt'
      omega

end BinaryFormat

/-! ### The search -/

/-- The number that digits stand for. -/
def DecimalDigits.toRat (d : DecimalDigits) : ℚ := d.digits * 10 ^ d.exponent

namespace Binary.Shortest

variable {i : Interval} {exponent : ℤ}

/-- A number between the ends of an interval, or on one that belongs to it. -/
def Interval.Holds (i : Interval) (x : ℚ) : Prop :=
  if i.closed then (i.low : ℚ) ≤ x * i.denominator ∧ x * i.denominator ≤ i.high
  else (i.low : ℚ) < x * i.denominator ∧ x * i.denominator < i.high

theorem Interval.Holds.low_le {x : ℚ} (h : i.Holds x) : (i.low : ℚ) ≤ x * i.denominator := by
  rw [Holds] at h
  split at h
  · exact h.1
  · exact h.1.le

theorem Interval.Holds.le_high {x : ℚ} (h : i.Holds x) : x * i.denominator ≤ i.high := by
  rw [Holds] at h
  split at h
  · exact h.2
  · exact h.2.le

theorem Interval.Holds.closed_of_eq_low {x : ℚ} (h : i.Holds x)
    (heq : (i.low : ℚ) = x * i.denominator) : i.closed := by
  rw [Holds] at h
  split at h
  · assumption
  · exact absurd heq h.1.ne

theorem Interval.Holds.closed_of_eq_high {x : ℚ} (h : i.Holds x)
    (heq : x * i.denominator = i.high) : i.closed := by
  rw [Holds] at h
  split at h
  · assumption
  · exact absurd heq h.2.ne

theorem Interval.holds_of_lt {x : ℚ} (hlow : (i.low : ℚ) < x * i.denominator)
    (hhigh : x * i.denominator < i.high) : i.Holds x := by
  rw [Holds]
  split
  · exact ⟨hlow.le, hhigh.le⟩
  · exact ⟨hlow, hhigh⟩

theorem Interval.onGrid_scaled (i : Interval) (exponent : ℤ) :
    ∃ c : ℚ, 0 < c ∧ ((i.onGrid exponent).low : ℚ) = i.low * c ∧
      ((i.onGrid exponent).middle : ℚ) = i.middle * c ∧
      ((i.onGrid exponent).high : ℚ) = i.high * c ∧
      ((i.onGrid exponent).denominator : ℚ) = 10 ^ exponent * i.denominator * c ∧
      (i.onGrid exponent).closed = i.closed := by
  rw [onGrid]
  split
  · rename_i hnonneg
    refine ⟨1, one_pos, by simp, by simp, by simp, ?_, rfl⟩
    have hpow : (10 : ℚ) ^ exponent = 10 ^ exponent.natAbs := by
      rw [← zpow_natCast, Int.natAbs_of_nonneg hnonneg]
    rw [hpow, Nat.pow_eq]
    push_cast
    ring
  · rename_i hneg
    refine ⟨10 ^ exponent.natAbs, by positivity, by simp, by simp, by simp, ?_, rfl⟩
    have hpow : (10 : ℚ) ^ exponent * 10 ^ exponent.natAbs = 1 := by
      rw [← zpow_natCast, ← zpow_add₀ (by norm_num), Int.ofNat_natAbs_of_nonpos (by omega),
        add_neg_cancel, zpow_zero]
    rw [mul_right_comm, hpow, one_mul]

theorem Interval.covers_onGrid_iff (n : ℕ) :
    (i.onGrid exponent).covers n ↔ i.Holds (n * 10 ^ exponent) := by
  obtain ⟨c, hc, hlow, _, hhigh, hden, hclosed⟩ := i.onGrid_scaled exponent
  have hpoint : ((n * (i.onGrid exponent).denominator : ℕ) : ℚ) =
      n * 10 ^ exponent * i.denominator * c := by
    rw [Nat.cast_mul, hden]
    ring
  rw [covers, Holds, hclosed]
  split
  · simp only [Bool.and_eq_true, decide_eq_true_eq]
    rw [← Nat.cast_le (α := ℚ), ← Nat.cast_le (α := ℚ), hpoint, hlow, hhigh,
      mul_le_mul_iff_left₀ hc, mul_le_mul_iff_left₀ hc]
  · simp only [Bool.and_eq_true, decide_eq_true_eq]
    rw [← Nat.cast_lt (α := ℚ), ← Nat.cast_lt (α := ℚ), hpoint, hlow, hhigh,
      mul_lt_mul_iff_left₀ hc, mul_lt_mul_iff_left₀ hc]

theorem Interval.covers_of_nearest? {tie : DigitTie} {n : ℕ} (h : i.nearest? tie = some n) :
    i.covers n := by
  rw [nearest?.eq_def] at h
  simp only at h
  split at h
  · cases h
  · obtain rfl := Option.some.inj h
    assumption
  · obtain rfl := Option.some.inj h
    assumption
  · rename_i hdown hup
    split at h
    · obtain rfl := Option.some.inj h
      exact hdown
    · split at h
      · obtain rfl := Option.some.inj h
        exact hup
      · split at h
        · obtain rfl := Option.some.inj h
          exact hup
        · obtain rfl := Option.some.inj h
          split <;> assumption

theorem Interval.holds_floor (hden : 0 < i.denominator) (hhigh : i.middle < i.high)
    (hfine : (10 : ℚ) ^ exponent * i.denominator ≤ i.middle - i.low) :
    i.Holds (((i.onGrid exponent).middle / (i.onGrid exponent).denominator : ℕ) *
      10 ^ exponent) := by
  obtain ⟨c, hc, _, hmiddle, _, hgrid, _⟩ := i.onGrid_scaled exponent
  have hgridpos : 0 < (i.onGrid exponent).denominator := by
    have : (0 : ℚ) < (i.onGrid exponent).denominator := by
      rw [hgrid]
      have : (0 : ℚ) < i.denominator := Nat.cast_pos.mpr hden
      positivity
    exact_mod_cast this
  have hle : ∀ n : ℕ, (n : ℚ) * 10 ^ exponent * i.denominator * c =
      ((n * (i.onGrid exponent).denominator : ℕ) : ℚ) := by
    intro n
    rw [Nat.cast_mul, hgrid]
    ring
  generalize hn : (i.onGrid exponent).middle / (i.onGrid exponent).denominator = n
  have hfloor : (n : ℚ) * 10 ^ exponent * i.denominator ≤ i.middle := by
    refine le_of_mul_le_mul_right ?_ hc
    rw [hle, ← hmiddle, ← hn]
    exact_mod_cast Nat.div_mul_le_self _ _
  have hnext : (i.middle : ℚ) < ((n + 1 : ℕ) : ℚ) * 10 ^ exponent * i.denominator := by
    refine lt_of_mul_lt_mul_right ?_ hc.le
    rw [hle, ← hmiddle, ← hn]
    exact_mod_cast (Nat.div_lt_iff_lt_mul hgridpos).mp (Nat.lt_succ_self _)
  refine holds_of_lt ?_ (hfloor.trans_lt (by exact_mod_cast hhigh))
  push_cast at hnext
  linarith

theorem holds_search (hden : 0 < i.denominator) (hhigh : i.middle < i.high) (tie : DigitTie)
    (fuel : ℕ) (hfine : (10 : ℚ) ^ (exponent - fuel) * i.denominator ≤ i.middle - i.low) :
    i.Holds (search i tie fuel exponent).toRat := by
  induction fuel generalizing exponent with
  | zero => exact Interval.holds_floor hden hhigh (by simpa using hfine)
  | succ fuel ih =>
    rw [search]
    split
    · rename_i n hn
      exact (Interval.covers_onGrid_iff n).mp (Interval.covers_of_nearest? hn)
    · refine ih ?_
      rw [sub_sub, add_comm (1 : ℤ)]
      exact_mod_cast hfine

end Binary.Shortest

namespace BinaryFormat

open Binary.Shortest

variable {f : BinaryFormat} {m n : ℕ}

/-- A format in which the search reaches a grid that is fine enough. -/
structure Searchable (f : BinaryFormat) : Prop where
  precision : 800 ≤ 5 ^ f.precision
  magnitudes : 2 * f.magnitudeBits ≤ 2 * f.fractionBits + 100000

theorem single_searchable : single.Searchable := ⟨by decide, by decide⟩

theorem double_searchable : double.Searchable := ⟨by decide, by decide⟩

/-- A power of ten is told by its logarithm to the base two, of which `c / a` is an approximation.
-/
theorem ten_zpow_div_le {a c : ℕ} (hc : 0 < c) (hlow : 2 ^ c ≤ 10 ^ a)
    (hhigh : 10 ^ a ≤ 2 ^ (c + 2)) {n : ℤ} (hn : 2 * n ≤ c) :
    (10 : ℚ) ^ (n * a / c) ≤ 2 ^ (n + 1) := by
  have hlow : (2 : ℚ) ^ c ≤ 10 ^ a := by exact_mod_cast hlow
  have hhigh : (10 : ℚ) ^ a ≤ 2 ^ (c + 2) := by exact_mod_cast hhigh
  have hfloor : (10 : ℚ) ^ (n * a / c * c) ≤ ((10 : ℚ) ^ a) ^ n := by
    rw [← zpow_natCast, ← zpow_mul, mul_comm (a : ℤ)]
    exact zpow_le_zpow_right₀ (by norm_num) (Int.ediv_mul_le _ (by omega))
  have hpower : ((10 : ℚ) ^ a) ^ n ≤ 2 ^ ((n + 1) * c) := by
    rcases le_or_gt 0 n with hnonneg | hneg
    · refine (zpow_le_zpow_left₀ hnonneg (by positivity) hhigh).trans ?_
      rw [← zpow_natCast, ← zpow_mul]
      refine zpow_le_zpow_right₀ (by norm_num) ?_
      push_cast
      linarith
    · obtain ⟨k, rfl⟩ : ∃ k : ℕ, n = -k := ⟨n.natAbs, by omega⟩
      have hpow : ((2 : ℚ) ^ c) ^ k ≤ ((10 : ℚ) ^ a) ^ k := pow_le_pow_left₀ (by positivity) hlow k
      rw [zpow_neg, zpow_natCast]
      refine (inv_anti₀ (by positivity) hpow).trans ?_
      rw [← pow_mul, ← zpow_natCast, ← zpow_neg]
      refine zpow_le_zpow_right₀ (by norm_num) ?_
      push_cast
      linarith
  refine le_of_pow_le_pow_left₀ hc.ne' (by positivity) ?_
  rw [← zpow_natCast, ← zpow_mul, ← zpow_natCast, ← zpow_mul]
  exact hfloor.trans hpower

theorem le_ten_zpow_div {a c : ℕ} (hc : 0 < c) (hlow : 2 ^ c ≤ 10 ^ a)
    (hhigh : 10 ^ a ≤ 2 ^ (c + 2)) {n : ℤ} (hn : -c ≤ 2 * n) :
    (2 : ℚ) ^ (n - 1) ≤ 10 ^ (n * a / c + 1) := by
  have hfloor : -(n * a / c + 1) ≤ -n * a / c := by
    have hlt : n * a < (n * a / c + 1) * c := Int.lt_ediv_add_one_mul_self _ (by omega)
    rw [Int.le_ediv_iff_mul_le (by omega)]
    linarith
  have hinverse : (10 : ℚ) ^ (-(n * a / c + 1)) ≤ 2 ^ (-(n - 1)) := calc
    (10 : ℚ) ^ (-(n * a / c + 1)) ≤ 10 ^ (-n * a / c) := zpow_le_zpow_right₀ (by norm_num) hfloor
    _ ≤ 2 ^ (-n + 1) := ten_zpow_div_le hc hlow hhigh (by omega)
    _ = 2 ^ (-(n - 1)) := by rw [neg_sub, sub_eq_neg_add]
  rw [zpow_neg, zpow_neg] at hinverse
  exact (inv_le_inv₀ (by positivity) (by positivity)).mp hinverse

theorem two_pow_le_gap_mul (f : BinaryFormat) (n : ℕ) :
    2 ^ (n.log2 + 1) ≤ f.gap n * 2 ^ f.precision := by
  rw [gap, spacing, ← pow_add]
  exact Nat.pow_le_pow_right (by decide) (by omega)

theorem Searchable.last_grid_le (hf : f.Searchable) (hn : f.Fits n) (hpos : 0 < n) :
    (10 : ℚ) ^ (topExponent f n - f.precision) * (4 * 2 ^ f.fractionBits : ℕ) ≤ f.gap n := by
  have hlog : n.log2 < f.magnitudeBits := (Nat.log2_lt (by omega)).mpr hn.1
  have hmagnitudes := hf.magnitudes
  have hprecision : (800 : ℚ) ≤ 5 ^ f.precision := by exact_mod_cast hf.precision
  have htop : topExponent f n = ((n.log2 + 1 : ℕ) - (f.fractionBits : ℤ)) * (30103 : ℕ) /
      (100000 : ℕ) + 2 := rfl
  have hpower := ten_zpow_div_le (a := 30103) (c := 100000)
    (n := (n.log2 + 1 : ℕ) - (f.fractionBits : ℤ)) (by decide) (by decide +kernel)
    (by decide +kernel) (by omega)
  have hgap : (2 : ℚ) ^ (n.log2 + 1) ≤ f.gap n * 2 ^ f.precision := by
    exact_mod_cast f.two_pow_le_gap_mul n
  rw [htop]
  generalize ((n.log2 + 1 : ℕ) - (f.fractionBits : ℤ)) * (30103 : ℕ) / (100000 : ℕ) = t at hpower
  have hten : (10 : ℚ) ^ (t + 2 - f.precision) * 10 ^ f.precision = 10 ^ t * 100 := by
    rw [← zpow_natCast, ← zpow_add₀ (by norm_num), sub_add_cancel, zpow_add₀ (by norm_num)]
    norm_num
  have htwo : (2 : ℚ) ^ ((n.log2 + 1 : ℕ) - (f.fractionBits : ℤ) + 1) * 2 ^ f.fractionBits =
      2 * 2 ^ (n.log2 + 1) := by
    rw [← zpow_natCast, ← zpow_natCast, ← zpow_add₀ (by norm_num), ← zpow_one_add₀ (by norm_num)]
    congr 1
    ring
  refine le_of_mul_le_mul_right ?_ (pow_pos (by norm_num : (0 : ℚ) < 10) f.precision)
  calc (10 : ℚ) ^ (t + 2 - f.precision) * (4 * 2 ^ f.fractionBits : ℕ) * 10 ^ f.precision
      = 10 ^ t * (400 * 2 ^ f.fractionBits) := by
        rw [mul_right_comm, hten]
        push_cast
        ring
    _ ≤ 2 ^ ((n.log2 + 1 : ℕ) - (f.fractionBits : ℤ) + 1) * (400 * 2 ^ f.fractionBits) :=
        mul_le_mul_of_nonneg_right hpower (by positivity)
    _ = 800 * 2 ^ (n.log2 + 1) := by
        rw [mul_left_comm, htwo]
        ring
    _ ≤ 5 ^ f.precision * (f.gap n * 2 ^ f.precision) :=
        mul_le_mul hprecision hgap (by positivity) (by positivity)
    _ = f.gap n * 10 ^ f.precision := by
        rw [mul_left_comm, ← mul_pow]
        norm_num

theorem gapBelow_le_two_mul (hn : f.Fits n) (hpos : 0 < n) : f.gapBelow n ≤ 2 * n :=
  (f.gapBelow_le n).trans (Nat.mul_le_mul_left 2 (Nat.le_of_dvd hpos hn.gap_dvd))

theorem around_eq (f : BinaryFormat) (units : ℕ) :
    Interval.around f units =
      { low := 4 * units - f.gapBelow units
        middle := 4 * units
        high := 4 * units + 2 * f.gap units
        denominator := 4 * 2 ^ f.fractionBits
        closed := units / f.gap units % 2 == 0 } := rfl

theorem middle_sub_low (hn : f.Fits n) (hpos : 0 < n) :
    ((Interval.around f n).middle : ℚ) - (Interval.around f n).low = f.gapBelow n := by
  have := gapBelow_le_two_mul hn hpos
  rw [around_eq]
  simp only
  rw [Nat.cast_sub (by omega)]
  ring

/-- The number that the shortest digits of a magnitude stand for. -/
def shortestValue (f : BinaryFormat) (units : ℕ) : ℚ := (f.shortestDigits .larger units).toRat

@[simp] theorem shortestValue_zero (f : BinaryFormat) : f.shortestValue 0 = 0 := by
  simp [shortestValue, shortestDigits, DecimalDigits.toRat]

theorem holds_shortestDigits (hf : f.Searchable) (hn : f.Fits n) (hpos : 0 < n) (tie : DigitTie) :
    (Interval.around f n).Holds (f.shortestDigits tie n).toRat := by
  rw [shortestDigits, if_neg (by omega)]
  refine holds_search ?_ ?_ tie f.precision ?_
  · simp [around_eq]
  · simp [around_eq, gap_pos]
  · rw [middle_sub_low hn hpos]
    refine (hf.last_grid_le hn hpos).trans ?_
    exact_mod_cast f.gap_le_gapBelow n

theorem holds_shortestValue (hf : f.Searchable) (hn : f.Fits n) (hpos : 0 < n) :
    (Interval.around f n).Holds (f.shortestValue n) :=
  holds_shortestDigits hf hn hpos .larger

theorem shortestDigits_toRat_pos (hf : f.Searchable) (hn : f.Fits n) (hpos : 0 < n)
    (tie : DigitTie) : 0 < (f.shortestDigits tie n).toRat := by
  have hlow := (holds_shortestDigits hf hn hpos tie).low_le
  have hpositive : (0 : ℚ) < (Interval.around f n).low := by
    have := gapBelow_le_two_mul hn hpos
    rw [around_eq, Nat.cast_pos]
    simp only
    omega
  exact pos_of_mul_pos_left (hpositive.trans_le hlow) (Nat.cast_nonneg _)

theorem shortestDigits_digits_pos (hf : f.Searchable) (hn : f.Fits n) (hpos : 0 < n)
    (tie : DigitTie) : 0 < (f.shortestDigits tie n).digits := by
  have hvalue := shortestDigits_toRat_pos hf hn hpos tie
  rw [DecimalDigits.toRat] at hvalue
  exact_mod_cast pos_of_mul_pos_left hvalue (by positivity)

theorem shortestValue_pos (hf : f.Searchable) (hn : f.Fits n) (hpos : 0 < n) :
    0 < f.shortestValue n :=
  shortestDigits_toRat_pos hf hn hpos .larger

/-- Numbers that round to different magnitudes are apart, except for an end that two intervals have
in common; and that belongs to the interval of the even significand alone. -/
theorem shortestValue_strictMonoOn (hf : f.Searchable) :
    StrictMonoOn f.shortestValue {units | f.Fits units} := by
  intro m hm n hn hlt
  rcases Nat.eq_zero_or_pos m with rfl | hmpos
  · rw [shortestValue_zero]
    exact shortestValue_pos hf hn hlt
  have hprecision : 0 < f.precision := by
    refine Nat.pos_of_ne_zero fun hzero => ?_
    have := hf.precision
    rw [hzero] at this
    omega
  have hnext := add_gap_le hm hn hlt
  have hbelow := two_mul_add_gapBelow_le hprecision hm hn hlt
  have hends : (Interval.around f m).high ≤ (Interval.around f n).low := by
    simp only [around_eq]
    omega
  have hcast : ((Interval.around f m).high : ℚ) ≤ (Interval.around f n).low := Nat.cast_le.mpr hends
  have hm' := holds_shortestValue hf hm hmpos
  have hn' := holds_shortestValue hf hn (hmpos.trans hlt)
  have hle := hm'.le_high.trans (hcast.trans hn'.low_le)
  refine lt_of_mul_lt_mul_right (lt_of_le_of_ne hle fun heq => ?_) (Nat.cast_nonneg _)
  -- Both lie on the common end.
  have hhigh := le_antisymm hm'.le_high ((hcast.trans hn'.low_le).trans_eq heq.symm)
  have hlow := le_antisymm hn'.low_le (heq.symm.trans_le (hm'.le_high.trans hcast))
  have hmiddle : (Interval.around f m).high = (Interval.around f n).low := by
    exact_mod_cast (hhigh.symm.trans heq).trans hlow.symm
  have hmclosed := hm'.closed_of_eq_high hhigh
  have hnclosed := hn'.closed_of_eq_low hlow
  simp only [around_eq, beq_iff_eq] at hmclosed hnclosed hmiddle
  exact not_even_of_neighbour hm hn (by omega) hmclosed hnclosed

/-- The number that the shortest digits of a magnitude with a sign stand for. -/
def signedValue (f : BinaryFormat) (units : ℤ) : ℚ :=
  if units < 0 then -f.shortestValue units.natAbs else f.shortestValue units.natAbs

@[simp] theorem signedValue_natCast (f : BinaryFormat) (units : ℕ) :
    f.signedValue units = f.shortestValue units := by
  rw [signedValue, if_neg (by omega), Int.natAbs_natCast]

@[simp] theorem signedValue_neg_natCast (f : BinaryFormat) (units : ℕ) :
    f.signedValue (-units) = -f.shortestValue units := by
  rcases Nat.eq_zero_or_pos units with rfl | hpos
  · simp [signedValue]
  · rw [signedValue, if_pos (by omega), Int.natAbs_neg, Int.natAbs_natCast]

theorem shortestValue_nonneg (hf : f.Searchable) (hn : f.Fits n) : 0 ≤ f.shortestValue n := by
  rcases Nat.eq_zero_or_pos n with rfl | hpos
  · simp
  · exact (shortestValue_pos hf hn hpos).le

theorem signedValue_strictMonoOn (hf : f.Searchable) :
    StrictMonoOn f.signedValue {units | f.Fits units.natAbs} := by
  intro m hm n hn hlt
  have hm : f.Fits m.natAbs := hm
  have hn : f.Fits n.natAbs := hn
  simp only [signedValue]
  split
  · rename_i hmneg
    have hmpos := shortestValue_pos hf hm (by omega)
    split
    · exact neg_lt_neg (shortestValue_strictMonoOn hf hn hm (by omega))
    · exact (neg_neg_of_pos hmpos).trans_le (shortestValue_nonneg hf hn)
  · rw [if_neg (by omega)]
    exact shortestValue_strictMonoOn hf hm hn (by omega)

end BinaryFormat

/-! ### Decimals of binary numbers -/

variable {f : BinaryFormat}

theorem Decimal.toRat_ofBinary? {negative : Bool} {units : ℕ} {fits : f.Fits units} {d : Decimal}
    (h : ofBinary? (.finite negative units fits) = some d) :
    d.toRat = f.signedValue (if negative then -units else units) := by
  have hmagnitude : ∀ s : DecimalDigits, (if 0 ≤ s.exponent then
      (⟨(s.digits * Nat.pow 10 s.exponent.natAbs : ℕ), 0⟩ : Decimal)
        else ⟨s.digits, -s.exponent⟩).toRat = s.toRat := by
    intro s
    rw [DecimalDigits.toRat]
    split
    · rename_i hnonneg
      have hpow : (10 : ℚ) ^ s.exponent = 10 ^ s.exponent.natAbs := by
        rw [← zpow_natCast, Int.natAbs_of_nonneg hnonneg]
      rw [hpow]
      simp [toRat]
    · simp [toRat]
  obtain rfl := Option.some.inj h
  cases negative with
  | false =>
    simp only [Bool.false_eq_true, if_false, BinaryFormat.signedValue_natCast]
    exact hmagnitude _
  | true =>
    simp only [if_true, BinaryFormat.signedValue_neg_natCast, toRat_neg]
    exact congrArg Neg.neg (hmagnitude _)

/-- Numbers of one format are ordered as their shortest digits are. -/
theorem Binary.compare?_eq_compare (hf : f.Searchable) {x y : Binary f} {a b : Decimal}
    (hx : Decimal.ofBinary? x = some a) (hy : Decimal.ofBinary? y = some b) :
    x.compare? y = some (a.compare b) := by
  cases x with
  | nan | infinite => cases hx
  | finite s m hm =>
    cases y with
    | nan | infinite => cases hy
    | finite t n hn =>
      have hsigned : ∀ (negative : Bool) (units : ℕ), f.Fits units →
          f.Fits (if negative then -units else units : ℤ).natAbs := by
        intro negative units hunits
        cases negative <;> simpa using hunits
      rw [Decimal.compare_eq_toRat, Decimal.toRat_ofBinary? hx, Decimal.toRat_ofBinary? hy]
      refine congrArg some ?_
      rw [← cmp_eq_compare, ← cmp_eq_compare]
      exact ((BinaryFormat.signedValue_strictMonoOn hf).cmp_map_eq (hsigned s m hm)
        (hsigned t n hn)).symm

end ObjectQuery
