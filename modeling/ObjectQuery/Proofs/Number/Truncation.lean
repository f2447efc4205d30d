import Mathlib
import ObjectQuery.Proofs.Number.Conversion
import ObjectQuery.Proofs.Number.Rounding

/-!
Whole parts of numbers that are rounded to a binary format. Main statement: a ratio keeps its whole
part exactly if the whole part is itself a number of the format and the ratio is nearer to it, or to
what lies between, than to the next integer.
-/

namespace ObjectQuery

namespace BinaryFormat

variable {f : BinaryFormat} {a n numerator denominator rounded : ℕ}

/-- Half the distance between the numbers of the format just below the integer that follows. -/
def halfStep (f : BinaryFormat) (whole : ℕ) : ℚ := 2 ^ whole.size / 2 ^ (f.precision + 1)

/-- The whole part needs no more bits than a significand has, and the number is not rounded up to
the next integer. A number halfway between is rounded to the next integer, except from an even one
that has no numbers of the format between itself and the next. -/
structure KeepsWhole (f : BinaryFormat) (x : ℚ) : Prop where
  dvd : f.gap ⌊x⌋₊ ∣ ⌊x⌋₊
  below : ⌊x⌋₊ < 2 ^ f.precision → x < ⌊x⌋₊ + 1 - f.halfStep ⌊x⌋₊ ∨
    x = ⌊x⌋₊ + 1 - f.halfStep ⌊x⌋₊ ∧ 2 ^ (f.precision - 1) ≤ ⌊x⌋₊ ∧ Even ⌊x⌋₊

/-! ### Nearest multiples -/

namespace RoundsTo

variable (h : f.RoundsTo numerator denominator rounded)

include h

theorem le_of_dvd (ha : f.gap (numerator / denominator) ∣ a) (hle : a * denominator ≤ numerator) :
    a ≤ rounded := by
  refine le_of_scaled_le ha h.dvd (f.gap_pos _) h.pos ?_
  have := h.ge
  omega

theorem ge_of_dvd (ha : f.gap (numerator / denominator) ∣ a) (hle : numerator ≤ a * denominator) :
    rounded ≤ a := by
  refine le_of_scaled_le h.dvd ha (f.gap_pos _) h.pos ?_
  have := h.le
  omega

theorem le_iff (ha : f.gap (numerator / denominator) ∣ a) (hle : numerator ≤ a * denominator) :
    a ≤ rounded ↔
      2 * (a * denominator) < 2 * numerator + f.gap (numerator / denominator) * denominator ∨
      2 * (a * denominator) = 2 * numerator + f.gap (numerator / denominator) * denominator ∧
        a / f.gap (numerator / denominator) % 2 = 0 := by
  constructor
  · intro hreached
    obtain rfl := Nat.le_antisymm hreached (h.ge_of_dvd ha hle)
    rcases Nat.eq_or_lt_of_le h.le with heq | hlt
    · exact .inr ⟨heq, h.even (.inl heq)⟩
    · exact .inl hlt
  · intro hnear
    by_contra hlt
    have hstep := add_le_of_dvd h.dvd ha (Nat.lt_of_not_le hlt)
    have hscaled := Nat.mul_le_mul_right denominator hstep
    rw [Nat.add_mul] at hscaled
    have hge := h.ge
    rcases hnear with hmore | ⟨hhalf, heven⟩
    · omega
    · -- Halfway between two multiples the even one is taken, and one of them is odd.
      have hneighbour : a = rounded + f.gap (numerator / denominator) := by
        refine Nat.le_antisymm (Nat.le_of_mul_le_mul_right ?_ h.pos) hstep
        rw [Nat.add_mul]
        omega
      have hrounded := h.even (.inr (by omega))
      rw [hneighbour, Nat.add_div_right _ (f.gap_pos _)] at heven
      omega

end RoundsTo

/-! ### Whole parts of magnitudes -/

/-- One, counted in units of the format. -/
def one (f : BinaryFormat) : ℕ := 2 ^ f.fractionBits

theorem one_pos (f : BinaryFormat) : 0 < f.one := Nat.two_pow_pos _

theorem exists_one_eq (h : 0 < f.fractionBits) :
    ∃ k, f.fractionBits = k + 1 ∧ f.one = 2 * 2 ^ k := by
  obtain ⟨k, hk⟩ : ∃ k, f.fractionBits = k + 1 := Nat.exists_eq_add_one.mpr h
  exact ⟨k, hk, by rw [one, hk, pow_succ, Nat.mul_comm]⟩

theorem gap_eq_one (hp : 0 < f.precision) (h : n < 2 ^ f.precision) : f.gap n = 1 := by
  have hlog : n.log2 < f.precision := by
    rcases Nat.eq_zero_or_pos n with rfl | hpos
    · exact hp
    · exact (Nat.log2_lt hpos.ne').mpr h
  rw [gap, spacing, Nat.sub_eq_zero_of_le hlog, pow_zero]

theorem log2_eq_add (h : n / f.one ≠ 0) : n.log2 = (n / f.one).log2 + f.fractionBits := by
  have hone : f.one ≤ n := Nat.le_of_not_lt fun hlt => h (Nat.div_eq_of_lt hlt)
  have hle : f.fractionBits ≤ n.log2 :=
    (Nat.le_log2 (by have := f.one_pos; omega)).mpr hone
  have hlog := Nat.log_div_base_pow 2 n f.fractionBits
  rw [← Nat.log2_eq_log_two, ← Nat.log2_eq_log_two] at hlog
  rw [one, hlog, Nat.sub_add_cancel hle]

theorem size_eq_log2_add_one (h : n ≠ 0) : n.size = n.log2 + 1 := by
  refine Nat.le_antisymm (Nat.size_le.mpr Nat.lt_log2_self) (Nat.lt_size.mpr ?_)
  exact Nat.log2_self_le h

theorem gap_eq_mul_one (h : 2 ^ f.precision ≤ n / f.one) :
    f.gap n = f.gap (n / f.one) * f.one := by
  have hne : n / f.one ≠ 0 := by
    have := Nat.two_pow_pos f.precision
    omega
  have hlog : f.precision ≤ (n / f.one).log2 := (Nat.le_log2 hne).mpr h
  rw [gap, gap, one, ← pow_add, spacing, spacing, ← one, log2_eq_add hne]
  congr 1
  omega

/-- Below such a whole part the gap is the same for all magnitudes from one half or an integer up to
the next integer. -/
theorem gap_mul_two_pow (hp : 0 < f.precision) (hfraction : f.precision ≤ f.fractionBits)
    (h : f.one ≤ 2 * n) : f.gap n * 2 ^ f.precision = 2 ^ (n / f.one).size * f.one := by
  have hlog : n.log2 + 1 = (n / f.one).size + f.fractionBits := by
    by_cases hwhole : n / f.one = 0
    · have hlt : n < f.one := by
        rwa [Nat.div_eq_zero_iff_lt f.one_pos] at hwhole
      obtain ⟨k, hk, hone⟩ := exists_one_eq (hp.trans_le hfraction)
      have hpos := Nat.two_pow_pos k
      have hlog : n.log2 = k :=
        (Nat.log2_eq_iff (by omega)).mpr ⟨by omega, by rw [pow_succ]; omega⟩
      rw [hwhole, Nat.size_zero, hk, hlog, Nat.zero_add]
    · rw [size_eq_log2_add_one hwhole, log2_eq_add hwhole]
      omega
  rw [gap, spacing, hlog, ← pow_add]
  change _ = _ * 2 ^ f.fractionBits
  rw [← pow_add]
  congr 1
  omega

theorem Fits.gap_dvd_div (hn : f.Fits n)
    (h : 2 ^ f.precision ≤ n / f.one) : f.gap (n / f.one) ∣ n / f.one := by
  have hdvd := hn.gap_dvd
  rw [gap_eq_mul_one h] at hdvd
  exact (Nat.dvd_div_iff_mul_dvd ((Nat.dvd_mul_left _ _).trans hdvd)).mpr
    (by rwa [Nat.mul_comm])

/-! ### Whole parts of rounded ratios -/

theorem mul_one_div_div (f : BinaryFormat) (numerator denominator : ℕ) :
    numerator * f.one / denominator / f.one = numerator / denominator := by
  rw [Nat.div_div_eq_div_mul, Nat.mul_div_mul_right _ _ f.one_pos]

theorem scaled_bounds (f : BinaryFormat) (numerator : ℕ) (hpos : 0 < denominator) :
    numerator / denominator * f.one * denominator ≤ numerator * f.one ∧
      numerator * f.one < numerator / denominator * f.one * denominator + f.one * denominator := by
  have hlow := Nat.mul_le_mul_right f.one (Nat.div_mul_le_self numerator denominator)
  have hhigh := Nat.mul_lt_mul_of_pos_right (Nat.lt_mul_div_succ numerator hpos) f.one_pos
  rw [Nat.mul_add, Nat.mul_one, Nat.add_mul] at hhigh
  constructor
  · rwa [Nat.mul_right_comm]
  · rwa [Nat.mul_right_comm, Nat.mul_comm (numerator / denominator), Nat.mul_comm f.one denominator]

theorem two_le_gap (h : 2 ^ f.precision ≤ n) : 2 ≤ f.gap n := by
  have hne : n ≠ 0 := by
    have := Nat.two_pow_pos f.precision
    omega
  have hlog : f.precision ≤ n.log2 := (Nat.le_log2 hne).mpr h
  exact Nat.le_self_pow (by rw [spacing]; omega) 2

theorem keepsWhole_of_le_half (hp : 0 < f.precision) {x : ℚ} (h : x ≤ 1 / 2) :
    f.KeepsWhole x := by
  have hwhole : ⌊x⌋₊ = 0 := by
    rw [Nat.floor_eq_zero]
    linarith
  have hhalf : f.halfStep 0 ≤ 1 / 4 := by
    have hpow : (2 : ℚ) ^ 2 ≤ 2 ^ (f.precision + 1) :=
      pow_le_pow_right₀ (by norm_num) (by omega)
    rw [halfStep, Nat.size_zero, pow_zero]
    exact one_div_le_one_div_of_le (by norm_num) (by linarith)
  refine ⟨by rw [hwhole]; exact Nat.dvd_zero _, fun _ => .inl ?_⟩
  rw [hwhole, Nat.cast_zero]
  linarith

theorem keepsWhole_div_of_le_half (hp : 0 < f.precision) (hpos : 0 < denominator)
    (h : 2 * numerator ≤ denominator) : f.KeepsWhole (numerator / denominator) := by
  refine keepsWhole_of_le_half hp ?_
  rw [div_le_div_iff₀ (Nat.cast_pos.mpr hpos) (by norm_num)]
  exact_mod_cast (by omega : numerator * 2 ≤ 1 * denominator)

theorem gap_scaled (h : 2 ^ f.precision ≤ numerator / denominator) :
    f.gap (numerator * f.one / denominator) = f.gap (numerator / denominator) * f.one := by
  have hwhole := f.mul_one_div_div numerator denominator
  rw [gap_eq_mul_one (by rwa [hwhole]), hwhole]

namespace RoundsTo

variable (h : f.RoundsTo (numerator * f.one) denominator rounded)

include h

theorem div_one_eq_iff_of_large (hlarge : 2 ^ f.precision ≤ numerator / denominator) :
    rounded / f.one = numerator / denominator ↔
      f.gap (numerator / denominator) ∣ numerator / denominator := by
  have hgap := gap_scaled hlarge
  have hone := f.one_pos
  constructor
  · intro heq
    have hdvd := h.dvd
    rw [hgap] at hdvd
    rw [← heq] at hdvd ⊢
    exact (Nat.dvd_div_iff_mul_dvd ((Nat.dvd_mul_left _ _).trans hdvd)).mpr
      (by rwa [Nat.mul_comm])
  · intro hdvd
    have hmultiple : f.gap (numerator * f.one / denominator) ∣
        numerator / denominator * f.one := by
      rw [hgap]
      exact Nat.mul_dvd_mul_right hdvd _
    obtain ⟨hlow, hhigh⟩ := scaled_bounds f numerator h.pos
    have hwide : 2 * (f.one * denominator) ≤
        f.gap (numerator * f.one / denominator) * denominator := by
      rw [hgap, Nat.mul_assoc]
      exact Nat.mul_le_mul_right _ (two_le_gap hlarge)
    -- The ratio is less than half a gap above its whole part, which is a multiple of the gap.
    have hbelow : ¬ numerator / denominator * f.one + f.gap (numerator * f.one / denominator) ≤
        rounded := by
      rw [h.le_iff (Nat.dvd_add hmultiple dvd_rfl) (by rw [Nat.add_mul]; omega), Nat.add_mul]
      omega
    have heq : rounded = numerator / denominator * f.one := by
      refine Nat.le_antisymm ?_ (h.le_of_dvd hmultiple hlow)
      by_contra hlt
      exact hbelow (add_le_of_dvd hmultiple h.dvd (Nat.lt_of_not_le hlt))
    rw [heq, Nat.mul_div_cancel _ f.one_pos]

/-- Below the integers that need more bits than a significand has, a ratio is rounded to its whole
part, to the next integer or to a number between them. -/
theorem div_one_eq_iff_of_small (hone : f.gap (numerator * f.one / denominator) ∣ f.one) :
    rounded / f.one = numerator / denominator ↔
      ¬ (numerator / denominator + 1) * f.one ≤ rounded := by
  obtain ⟨hlow, hhigh⟩ := scaled_bounds f numerator h.pos
  have hle := h.le_of_dvd (hone.mul_left (numerator / denominator)) hlow
  have hpos := f.one_pos
  rw [Nat.div_eq_iff hpos, Nat.add_mul, Nat.one_mul]
  omega

end RoundsTo

theorem halfStep_eq (hgap : n * 2 ^ f.precision = 2 ^ a.size * f.one) :
    f.halfStep a = n / (2 * f.one) := by
  have hone : (f.one : ℚ) ≠ 0 := Nat.cast_ne_zero.mpr f.one_pos.ne'
  have hgap' : (n : ℚ) * 2 ^ f.precision = 2 ^ a.size * f.one := by exact_mod_cast hgap
  rw [halfStep, pow_succ, div_eq_div_iff (by positivity) (by positivity)]
  linear_combination -2 * hgap'

theorem one_eq_mul (hlt : a < 2 ^ f.precision)
    (hgap : n * 2 ^ f.precision = 2 ^ a.size * f.one) : f.one = n * 2 ^ (f.precision - a.size) := by
  have hsize : a.size ≤ f.precision := Nat.size_le.mpr hlt
  refine Nat.eq_of_mul_eq_mul_left (Nat.two_pow_pos a.size) ?_
  rw [← hgap, Nat.mul_left_comm, ← pow_add, Nat.add_sub_cancel' hsize]

theorem next_even_iff (hp : 0 < f.precision) (hlt : a < 2 ^ f.precision)
    (hgap : n * 2 ^ f.precision = 2 ^ a.size * f.one) :
    (a + 1) * f.one / n % 2 = 0 ↔ ¬ (2 ^ (f.precision - 1) ≤ a ∧ Even a) := by
  have hone := one_eq_mul hlt hgap
  have hn : 0 < n := by
    refine Nat.pos_of_ne_zero fun hzero => ?_
    have := f.one_pos
    rw [hone, hzero, Nat.zero_mul] at this
    omega
  have hquotient : (a + 1) * f.one / n = (a + 1) * 2 ^ (f.precision - a.size) := by
    rw [hone, Nat.mul_left_comm, Nat.mul_div_cancel_left _ hn]
  rw [hquotient]
  by_cases hfull : 2 ^ (f.precision - 1) ≤ a
  · have hsize' : f.precision - a.size = 0 := by
      have := Nat.lt_size.mpr hfull
      omega
    rw [hsize', pow_zero, Nat.mul_one, Nat.even_iff]
    simp only [hfull, true_and]
    omega
  · obtain ⟨k, hk⟩ : ∃ k, f.precision - a.size = k + 1 := by
      have := Nat.size_le.mpr (Nat.lt_of_not_le hfull)
      exact Nat.exists_eq_add_one.mpr (by omega)
    rw [hk, pow_succ, ← Nat.mul_assoc, Nat.mul_mod_left]
    simp [hfull]

theorem lt_halfway_iff (hpos : 0 < denominator) :
    (numerator / denominator : ℚ) < a + 1 - n / (2 * f.one) ↔
      2 * (numerator * f.one) + n * denominator < 2 * ((a + 1) * f.one * denominator) := by
  have hden : (0 : ℚ) < denominator := Nat.cast_pos.mpr hpos
  have hone : (0 : ℚ) < f.one := Nat.cast_pos.mpr f.one_pos
  rw [← @Nat.cast_lt ℚ, lt_sub_iff_add_lt, div_add_div _ _ hden.ne' (by positivity),
    div_lt_iff₀ (by positivity)]
  push_cast
  constructor <;> intro h <;> linarith

theorem eq_halfway_iff (hpos : 0 < denominator) :
    (numerator / denominator : ℚ) = a + 1 - n / (2 * f.one) ↔
      2 * (numerator * f.one) + n * denominator = 2 * ((a + 1) * f.one * denominator) := by
  have hden : (0 : ℚ) < denominator := Nat.cast_pos.mpr hpos
  have hone : (0 : ℚ) < f.one := Nat.cast_pos.mpr f.one_pos
  rw [← @Nat.cast_inj ℚ, eq_sub_iff_add_eq, div_add_div _ _ hden.ne' (by positivity),
    div_eq_iff (by positivity)]
  push_cast
  constructor <;> intro h <;> linarith

/-! ### Ratios that keep their whole part -/

theorem keepsWhole_div_iff_of_large (hlarge : 2 ^ f.precision ≤ numerator / denominator) :
    f.KeepsWhole (numerator / denominator) ↔
      f.gap (numerator / denominator) ∣ numerator / denominator := by
  have hfloor : ⌊(numerator / denominator : ℚ)⌋₊ = numerator / denominator :=
    Nat.floor_div_eq_div numerator denominator
  constructor
  · intro hkeeps
    have hdvd := hkeeps.dvd
    rwa [hfloor] at hdvd
  · intro hdvd
    exact ⟨by rwa [hfloor], fun hlt => absurd hlt (by rw [hfloor]; omega)⟩

theorem keepsWhole_div_iff_of_small (hp : 0 < f.precision) (hpos : 0 < denominator)
    (hsmall : numerator / denominator < 2 ^ f.precision)
    (hgap : n * 2 ^ f.precision = 2 ^ (numerator / denominator).size * f.one) :
    f.KeepsWhole (numerator / denominator) ↔
      2 * (numerator * f.one) + n * denominator <
          2 * ((numerator / denominator + 1) * f.one * denominator) ∨
        2 * (numerator * f.one) + n * denominator =
          2 * ((numerator / denominator + 1) * f.one * denominator) ∧
          2 ^ (f.precision - 1) ≤ numerator / denominator ∧ Even (numerator / denominator) := by
  have hfloor : ⌊(numerator / denominator : ℚ)⌋₊ = numerator / denominator :=
    Nat.floor_div_eq_div numerator denominator
  rw [← lt_halfway_iff hpos, ← eq_halfway_iff hpos, ← halfStep_eq hgap]
  constructor
  · intro hkeeps
    have hbelow := hkeeps.below
    rw [hfloor] at hbelow
    exact hbelow hsmall
  · intro hbelow
    refine ⟨?_, fun _ => by rwa [hfloor]⟩
    rw [hfloor, gap_eq_one hp hsmall]
    exact Nat.one_dvd _

theorem one_le_two_mul_div (hfraction : 0 < f.fractionBits) (hpos : 0 < denominator)
    (hhalf : denominator ≤ 2 * numerator) : f.one ≤ 2 * (numerator * f.one / denominator) := by
  obtain ⟨k, -, hone⟩ := exists_one_eq hfraction
  have hle : 2 ^ k ≤ numerator * f.one / denominator := by
    rw [Nat.le_div_iff_mul_le hpos, hone, ← Nat.mul_assoc, Nat.mul_comm numerator, Nat.mul_comm]
    exact Nat.mul_le_mul_right _ hhalf
  omega

namespace RoundsTo

variable (h : f.RoundsTo (numerator * f.one) denominator rounded)

include h

theorem div_one_of_le_half (hp : 0 < f.precision) (hfraction : 0 < f.fractionBits)
    (hhalf : 2 * numerator ≤ denominator) : rounded / f.one = 0 := by
  obtain ⟨k, -, hone⟩ := exists_one_eq hfraction
  have hle : numerator * f.one ≤ 2 ^ k * denominator := by
    rw [hone, ← Nat.mul_assoc, Nat.mul_comm numerator, Nat.mul_comm]
    exact Nat.mul_le_mul_left _ hhalf
  have hquotient : numerator * f.one / denominator ≤ 2 ^ k :=
    Nat.div_le_of_le_mul (hle.trans_eq (Nat.mul_comm _ _))
  have hlog : (numerator * f.one / denominator).log2 ≤ k := by
    have := log2_mono hquotient
    rwa [Nat.log2_two_pow] at this
  have hrounded := h.ge_of_dvd (gap_dvd_two_pow hp hlog) hle
  have hpos := Nat.two_pow_pos k
  exact Nat.div_eq_of_lt (by omega)

theorem div_one_eq_iff (hp : 0 < f.precision) (hfraction : f.precision ≤ f.fractionBits) :
    rounded / f.one = numerator / denominator ↔ f.KeepsWhole (numerator / denominator) := by
  have hpos := h.pos
  rcases Nat.lt_or_ge (numerator / denominator) (2 ^ f.precision) with hsmall | hlarge
  · rcases Nat.lt_or_ge (2 * numerator) denominator with hhalf | hhalf
    · have hle : (numerator / denominator : ℚ) ≤ 1 / 2 := by
        rw [div_le_div_iff₀ (Nat.cast_pos.mpr hpos) (by norm_num)]
        exact_mod_cast (by omega : numerator * 2 ≤ 1 * denominator)
      rw [h.div_one_of_le_half hp (hp.trans_le hfraction) hhalf.le, Nat.div_eq_of_lt (by omega)]
      exact iff_of_true rfl (keepsWhole_div_of_le_half hp hpos hhalf.le)
    · have hgap := gap_mul_two_pow hp hfraction
        (one_le_two_mul_div (hp.trans_le hfraction) hpos hhalf)
      rw [mul_one_div_div] at hgap
      have hdvd : f.gap (numerator * f.one / denominator) ∣ f.one :=
        Dvd.intro _ (one_eq_mul hsmall hgap).symm
      have hhigh : numerator * f.one ≤ (numerator / denominator + 1) * f.one * denominator := by
        rw [Nat.add_mul, Nat.add_mul, Nat.one_mul]
        exact (scaled_bounds f numerator hpos).2.le
      rw [keepsWhole_div_iff_of_small hp hpos hsmall hgap, h.div_one_eq_iff_of_small hdvd,
        h.le_iff (hdvd.mul_left _) hhigh, next_even_iff hp hsmall hgap]
      by_cases heven : 2 ^ (f.precision - 1) ≤ numerator / denominator ∧
        Even (numerator / denominator)
      · simp only [heven, not_true, and_true, and_false, or_false]
        omega
      · simp only [heven, not_false_iff, and_true, and_false, or_false]
        omega
  · rw [keepsWhole_div_iff_of_large hlarge, h.div_one_eq_iff_of_large hlarge]

theorem le_div_one (hlarge : 2 ^ f.precision ≤ numerator / denominator)
    (hwide : 2 < f.gap (numerator / denominator))
    (hnext : f.gap (numerator / denominator) ∣ numerator / denominator + 1) :
    numerator / denominator + 1 ≤ rounded / f.one := by
  have hgap := gap_scaled hlarge
  rw [Nat.le_div_iff_mul_le f.one_pos]
  by_contra hlt
  have hmultiple : f.gap (numerator * f.one / denominator) ∣
      (numerator / denominator + 1) * f.one := by
    rw [hgap]
    exact Nat.mul_dvd_mul_right hnext _
  have hstep := Nat.mul_le_mul_right denominator
    (add_le_of_dvd h.dvd hmultiple (Nat.lt_of_not_le hlt))
  have hpos : 0 < f.one * denominator := Nat.mul_pos f.one_pos h.pos
  have hfar : 3 * (f.one * denominator) ≤
      f.gap (numerator * f.one / denominator) * denominator := by
    rw [hgap, Nat.mul_assoc]
    exact Nat.mul_le_mul_right _ hwide
  obtain ⟨hlow, -⟩ := scaled_bounds f numerator h.pos
  have hge := h.ge
  rw [Nat.add_mul, Nat.add_mul, Nat.add_mul, Nat.one_mul] at hstep
  omega

end RoundsTo

/-! ### Rounded counts of units -/

section Rounded

variable (hp : 0 < f.precision)

include hp

theorem roundUnits_le_one (hlt : numerator < denominator) :
    Binary.roundUnits f numerator denominator ≤ 1 := by
  have hgap : Nat.pow 2 (f.spacing 0) = 1 := gap_eq_one hp (Nat.two_pow_pos _)
  rw [Binary.roundUnits, Nat.div_eq_of_lt hlt, hgap, Nat.mul_one, Nat.mul_one, roundHalfEven,
    Nat.div_eq_of_lt hlt]
  split <;> omega

variable (hfraction : f.precision ≤ f.fractionBits) (hpos : 0 < denominator)

include hfraction hpos

theorem roundUnits_div_one_eq_iff :
    Binary.roundUnits f (numerator * f.one) denominator / f.one = numerator / denominator ↔
      f.KeepsWhole (numerator / denominator) := by
  rcases Nat.lt_or_ge (numerator * f.one) denominator with hlt | hge
  · obtain ⟨k, -, hone⟩ := exists_one_eq (hp.trans_le hfraction)
    have htwo : 2 ≤ f.one := by
      have := Nat.two_pow_pos k
      omega
    have hnumerator : 2 * numerator ≤ denominator :=
      ((Nat.mul_comm 2 numerator).trans_le (Nat.mul_le_mul_left _ htwo)).trans hlt.le
    have hunits := roundUnits_le_one hp hlt
    rw [Nat.div_eq_of_lt (by omega), Nat.div_eq_of_lt (by omega)]
    exact iff_of_true rfl (keepsWhole_div_of_le_half hp hpos hnumerator)
  · exact (roundsTo_roundUnits hp hpos hge).div_one_eq_iff hp hfraction

theorem fits_roundUnits (hbits : (numerator / denominator).log2 + f.fractionBits + 1 <
    f.magnitudeBits) : f.Fits (Binary.roundUnits f (numerator * f.one) denominator) := by
  rcases Nat.lt_or_ge (numerator * f.one) denominator with hlt | hge
  · have hone : f.Fits 1 :=
      ⟨Nat.one_lt_two_pow (by omega), by
        rw [show Nat.pow 2 (f.spacing 1) = 1 from gap_eq_one hp (Nat.one_lt_two_pow hp.ne')]⟩
    rcases Nat.le_one_iff_eq_zero_or_eq_one.mp (roundUnits_le_one hp hlt) with heq | heq
    · rw [heq]
      exact f.fits_zero
    · rwa [heq]
  · refine (roundsTo_roundUnits hp hpos hge).fits hp ?_
    have hwhole := f.mul_one_div_div numerator denominator
    by_cases hzero : numerator / denominator = 0
    · have hlt : numerator * f.one / denominator < 2 ^ f.fractionBits := by
        rw [hzero] at hwhole
        exact (Nat.div_eq_zero_iff_lt f.one_pos).mp hwhole
      have hlog := (Nat.log2_lt (Nat.div_pos hge hpos).ne').mpr hlt
      omega
    · rw [log2_eq_add (by rwa [hwhole]), hwhole]
      exact hbits

end Rounded

/-! ### Ratios of few bits -/

theorem halfStep_le_half (h : n < 2 ^ f.precision) : f.halfStep n ≤ 1 / 2 := by
  have hsize : (2 : ℚ) ^ n.size ≤ 2 ^ f.precision :=
    pow_le_pow_right₀ (by norm_num) (Nat.size_le.mpr h)
  rw [halfStep, pow_succ, div_le_div_iff₀ (by positivity) (by norm_num)]
  linarith

theorem keepsWhole_natCast_iff : f.KeepsWhole n ↔ f.gap n ∣ n := by
  constructor
  · intro h
    have hdvd := h.dvd
    rwa [Nat.floor_natCast] at hdvd
  · intro h
    refine ⟨by rwa [Nat.floor_natCast], fun hlt => .inl ?_⟩
    rw [Nat.floor_natCast] at hlt ⊢
    have := halfStep_le_half hlt
    linarith

theorem two_pow_size_le (h : n ≠ 0) : 2 ^ n.size ≤ 2 * n := by
  rw [size_eq_log2_add_one h, pow_succ, Nat.mul_comm]
  exact Nat.mul_le_mul_left 2 (Nat.log2_self_le h)

theorem halfStep_lt_rest {rest : ℕ} (hle : numerator ≤ 2 ^ f.precision)
    (hhalf : denominator < 2 * numerator) (hsmall : numerator / denominator < 2 ^ f.precision)
    (hrest : numerator / denominator * denominator + denominator = numerator + rest)
    (hpos : 0 < rest) :
    2 ^ (numerator / denominator).size * denominator < rest * 2 ^ (f.precision + 1) := by
  have hbits : 2 ^ (f.precision + 1) = 2 * 2 ^ f.precision := Nat.pow_succ'
  have hone : 2 ^ (f.precision + 1) ≤ rest * 2 ^ (f.precision + 1) :=
    Nat.le_mul_of_pos_left _ hpos
  by_cases hwhole : numerator / denominator = 0
  · rw [hwhole, Nat.size_zero, pow_zero, Nat.one_mul]
    omega
  have hstep := Nat.mul_le_mul_right denominator (two_pow_size_le hwhole)
  rw [Nat.mul_assoc] at hstep
  have hlow := Nat.div_mul_le_self numerator denominator
  rcases Nat.lt_or_ge 1 rest with htwo | hlast
  · have hmore := Nat.mul_le_mul_right (2 ^ (f.precision + 1)) htwo
    have hpower := Nat.two_pow_pos f.precision
    omega
  · rcases Nat.lt_or_ge 1 denominator with hratio | hinteger
    · omega
    · obtain rfl : denominator = 1 := by
        have : denominator ≠ 0 := fun hzero => hwhole (by rw [hzero, Nat.div_zero])
        omega
      have hsize := Nat.pow_le_pow_right (n := 2) (by decide) (Nat.size_le.mpr hsmall)
      have hpower := Nat.two_pow_pos f.precision
      omega

theorem keepsWhole_div_of_le (hp : 0 < f.precision)
    (hpos : 0 < denominator) (hle : numerator ≤ 2 ^ f.precision) :
    f.KeepsWhole (numerator / denominator) := by
  have hden : (0 : ℚ) < denominator := Nat.cast_pos.mpr hpos
  have hfloor : ⌊(numerator / denominator : ℚ)⌋₊ = numerator / denominator :=
    Nat.floor_div_eq_div numerator denominator
  rcases Nat.lt_or_ge (numerator / denominator) (2 ^ f.precision) with hsmall | hlarge
  · rcases Nat.lt_or_ge denominator (2 * numerator) with hhalf | hhalf
    · refine ⟨by rw [hfloor, gap_eq_one hp hsmall]; exact Nat.one_dvd _, fun _ => .inl ?_⟩
      have hnext : numerator < numerator / denominator * denominator + denominator := by
        have := Nat.lt_mul_div_succ numerator hpos
        rwa [Nat.mul_add, Nat.mul_one, Nat.mul_comm] at this
      obtain ⟨rest, hrest⟩ := Nat.exists_eq_add_of_lt hnext
      have hstep := halfStep_lt_rest hle hhalf hsmall hrest (Nat.succ_pos rest)
      rw [hfloor, halfStep, lt_sub_iff_add_lt, div_add_div _ _ hden.ne' (by positivity),
        div_lt_iff₀ (by positivity)]
      have hscaled : numerator * 2 ^ (f.precision + 1) +
          denominator * 2 ^ (numerator / denominator).size <
            (numerator / denominator + 1) * (denominator * 2 ^ (f.precision + 1)) := by
        rw [← Nat.mul_assoc, Nat.add_mul _ 1, Nat.one_mul, hrest, Nat.mul_comm denominator,
          Nat.add_assoc, Nat.add_mul]
        exact Nat.add_lt_add_left hstep _
      exact_mod_cast hscaled
    · exact keepsWhole_div_of_le_half hp hpos hhalf
  · have hwhole : numerator / denominator = 2 ^ f.precision :=
      Nat.le_antisymm ((Nat.div_le_self _ _).trans hle) hlarge
    rw [keepsWhole_div_iff_of_large hlarge, hwhole]
    exact gap_dvd_two_pow hp (by rw [Nat.log2_two_pow])

theorem gap_two_pow_63 : double.gap (2 ^ 63) ∣ 2 ^ 63 := by
  rw [gap, show double.spacing (2 ^ 63) = 11 by decide +kernel]
  exact Nat.pow_dvd_pow 2 (by decide)

end BinaryFormat

/-! ### Integer parts of 64 bits -/

namespace Binary

open BinaryFormat
open Decimal (signedBy signedBy_true signedBy_false)

variable {f : BinaryFormat} {negative : Bool} {units whole numerator denominator : ℕ}

theorem toInt_toInt64_finite (fits : f.Fits units) :
    (finite negative units fits).toInt64.toInt =
      max (-2 ^ 63) (min (2 ^ 63 - 1) (signedBy negative (units / f.one))) := by
  have htoInt64 : (finite negative units fits).toInt64 =
      if signedBy negative (units / f.one) < Int64.minValue.toInt then Int64.minValue
      else if Int64.maxValue.toInt < signedBy negative (units / f.one) then Int64.maxValue
      else Int64.ofInt (signedBy negative (units / f.one)) := rfl
  have hmin : Int64.minValue.toInt = -2 ^ 63 := rfl
  have hmax : Int64.maxValue.toInt = 2 ^ 63 - 1 := rfl
  rw [htoInt64, hmin, hmax]
  split
  · omega
  · split
    · omega
    · rw [Int64.toInt_ofInt_of_le (by omega) (by omega)]
      omega

theorem eq_two_pow_63_of_signedBy (h : signedBy negative whole = -2 ^ 63) : whole = 2 ^ 63 := by
  cases negative <;> simp only [signedBy_true, signedBy_false] at h <;> omega

theorem eq_of_signedBy_last (h : signedBy negative whole = 2 ^ 63 - 1) :
    negative = false ∧ whole = 2 ^ 63 - 1 := by
  cases negative <;> simp only [signedBy_true, signedBy_false] at h <;>
    simp <;> omega

theorem le_two_pow_63 (h : signedBy negative whole ∈ Set.Ico (-2 ^ 63) (2 ^ 63)) :
    whole ≤ 2 ^ 63 := by
  obtain ⟨hlow, hhigh⟩ := h
  cases negative <;> simp only [signedBy_true, signedBy_false] at hlow hhigh <;>
    omega

theorem keepsWhole_two_pow_63 : double.KeepsWhole (2 ^ 63 : ℕ) :=
  keepsWhole_natCast_iff.mpr gap_two_pow_63

theorem keepsWhole_natCast_of_lt (h : whole < 2 ^ double.precision) : double.KeepsWhole whole := by
  rw [keepsWhole_natCast_iff, gap_eq_one (by decide) h]
  exact Nat.one_dvd _

theorem eq_or_of_clamped {sign : Bool} {n : ℕ}
    (h : max (-2 ^ 63) (min (2 ^ 63 - 1) (signedBy sign n)) = signedBy negative whole) :
    n = whole ∨ signedBy negative whole = 2 ^ 63 - 1 ∨ signedBy negative whole = -2 ^ 63 := by
  cases sign <;> cases negative <;> simp only [signedBy_true, signedBy_false] at h ⊢ <;> omega

theorem keepsWhole_of_toInt64 {x : Double} (h : x.toInt64.toInt = signedBy negative whole) :
    double.KeepsWhole whole ∨ signedBy negative whole = 2 ^ 63 - 1 := by
  cases x with
  | nan =>
    obtain rfl : whole = 0 := by
      rw [show (nan : Double).toInt64.toInt = 0 from rfl] at h
      cases negative <;> simp only [signedBy_true, signedBy_false] at h <;> omega
    exact .inl (keepsWhole_natCast_of_lt (Nat.two_pow_pos _))
  | infinite s =>
    cases s with
    | false => exact .inr h.symm
    | true =>
      obtain rfl := eq_two_pow_63_of_signedBy h.symm
      exact .inl keepsWhole_two_pow_63
  | finite s units fits =>
    rw [toInt_toInt64_finite] at h
    rcases eq_or_of_clamped h with rfl | hlast | hlowest
    · refine .inl ?_
      rcases Nat.lt_or_ge (units / double.one) (2 ^ double.precision) with hsmall | hlarge
      · exact keepsWhole_natCast_of_lt hsmall
      · exact keepsWhole_natCast_iff.mpr (fits.gap_dvd_div hlarge)
    · exact .inr hlast
    · obtain rfl := eq_two_pow_63_of_signedBy hlowest
      exact .inl keepsWhole_two_pow_63

theorem ofRatio_eq_finite (negative : Bool)
    (hfits : f.Fits (roundUnits f (numerator * f.one) denominator)) :
    ofRatio negative numerator denominator = finite negative _ hfits := by
  rw [ofRatio, ofUnits]
  exact dif_pos hfits

theorem two_pow_63_le_rounded (hpos : 0 < denominator)
    (hwhole : numerator / denominator = 2 ^ 63 - 1) :
    2 ^ 63 ≤ roundUnits double (numerator * double.one) denominator / double.one := by
  have hle : denominator ≤ numerator := Nat.le_of_not_lt fun hlt => by
    rw [Nat.div_eq_of_lt hlt] at hwhole
    omega
  have hscaled : denominator ≤ numerator * double.one :=
    hle.trans (Nat.le_mul_of_pos_right numerator double.one_pos)
  have hround := roundsTo_roundUnits (f := double) (by decide) hpos hscaled
  have hnext := hround.le_div_one (by rw [hwhole]; decide) (by rw [hwhole]; decide +kernel)
    (by rw [hwhole]; decide +kernel)
  rw [hwhole] at hnext
  omega

/-- The integer part of a rounded ratio is that of the ratio if the ratio keeps it, or if it is the
last of the range. -/
theorem toInt64_ofRatio_eq_iff (hpos : 0 < denominator)
    (hrange : signedBy negative (numerator / denominator) ∈ Set.Ico (-2 ^ 63) (2 ^ 63)) :
    (ofRatio negative numerator denominator : Double).toInt64.toInt =
        signedBy negative (numerator / denominator) ↔
      double.KeepsWhole (numerator / denominator) ∨
        signedBy negative (numerator / denominator) = 2 ^ 63 - 1 := by
  have hp : 0 < double.precision := by decide
  have hfraction : double.precision ≤ double.fractionBits := by decide
  have hmagnitude : 63 + double.fractionBits + 1 < double.magnitudeBits := by decide
  have hle := le_two_pow_63 hrange
  obtain ⟨hlow, hhigh⟩ := hrange
  have hfits : double.Fits (roundUnits double (numerator * double.one) denominator) := by
    have hlog := log2_mono hle
    rw [Nat.log2_two_pow] at hlog
    exact fits_roundUnits hp hfraction hpos (by omega)
  rw [ofRatio_eq_finite negative hfits, toInt_toInt64_finite,
    ← roundUnits_div_one_eq_iff hp hfraction hpos]
  constructor
  · intro h
    rcases eq_or_of_clamped h with heq | hlast | hlowest
    · exact .inl heq
    · exact .inr hlast
    · have hwhole := eq_two_pow_63_of_signedBy hlowest
      refine .inl ((roundUnits_div_one_eq_iff hp hfraction hpos).mpr
        ((keepsWhole_div_iff_of_large ?_).mpr ?_))
      · rw [hwhole]
        decide
      · rw [hwhole]
        exact gap_two_pow_63
  · rintro (heq | hlast)
    · rw [heq]
      omega
    · obtain ⟨rfl, hwhole⟩ := eq_of_signedBy_last hlast
      have hrounded := two_pow_63_le_rounded hpos hwhole
      rw [hlast]
      generalize roundUnits double (numerator * double.one) denominator / double.one = w at *
      simp only [signedBy_false]
      omega

theorem toInt64_ofRatio_one_eq_iff
    (hrange : signedBy negative whole ∈ Set.Ico (-2 ^ 63) (2 ^ 63)) :
    (ofRatio negative whole 1 : Double).toInt64.toInt = signedBy negative whole ↔
      double.KeepsWhole whole ∨ signedBy negative whole = 2 ^ 63 - 1 := by
  have h : (ofRatio negative whole 1 : Double).toInt64.toInt = signedBy negative (whole / 1) ↔
      double.KeepsWhole (whole / (1 : ℕ)) ∨ signedBy negative (whole / 1) = 2 ^ 63 - 1 :=
    toInt64_ofRatio_eq_iff Nat.one_pos (by rwa [Nat.div_one])
  rwa [Nat.div_one, Nat.cast_one, div_one] at h

end Binary

end ObjectQuery
