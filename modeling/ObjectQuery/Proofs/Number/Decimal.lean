import Mathlib.Algebra.Order.Field.Power
import Mathlib.Algebra.Order.Field.Rat
import Mathlib.Order.Compare
import Mathlib.Tactic.Positivity
import ObjectQuery.Number.Decimal

/-!
Decimals as rational numbers. Main statements: decimals compare as the numbers that they stand for,
whatever their scales, and a scale cut to 64 bits keeps the number exactly if it had no more or if
the number is zero.
-/

namespace ObjectQuery.Decimal

/-- The number that a decimal stands for. -/
def toRat (d : Decimal) : ℚ := d.unscaled * 10 ^ (-d.scale)

theorem unscaledAt_mul_zpow {d : Decimal} {scale : ℤ} (h : d.scale ≤ scale) :
    (d.unscaledAt scale : ℚ) * 10 ^ (-scale) = d.toRat := by
  have hpow : ((10 ^ (scale - d.scale).toNat : ℕ) : ℚ) = 10 ^ (scale - d.scale) := by
    rw [← Int.toNat_of_nonneg (sub_nonneg.mpr h), zpow_natCast]
    push_cast
    rfl
  rw [unscaledAt, toRat, Int.cast_mul, Int.cast_natCast, Nat.pow_eq, hpow, mul_assoc,
    ← zpow_add₀ (by norm_num), sub_add_eq_add_sub, add_neg_cancel, zero_sub]

theorem compare_eq_toRat (a b : Decimal) : a.compare b = Ord.compare a.toRat b.toRat := by
  have hmono : StrictMono fun n : ℤ => (n : ℚ) * 10 ^ (-max a.scale b.scale) := by
    intro m n hmn
    exact mul_lt_mul_of_pos_right (Int.cast_lt.mpr hmn) (by positivity)
  rw [← unscaledAt_mul_zpow (le_max_left a.scale b.scale),
    ← unscaledAt_mul_zpow (le_max_right a.scale b.scale), ← cmp_eq_compare]
  exact (cmp_eq_compare _ _).symm.trans (hmono.cmp_map_eq _ _).symm

theorem beq_iff {a b : Decimal} : a.beq b ↔ a.toRat = b.toRat := by
  rw [beq, beq_iff_eq, compare_eq_toRat, compare_eq_iff_eq]

@[simp] theorem toRat_ofInt (n : ℤ) : (ofInt n).toRat = n := by
  simp [toRat, ofInt]

@[simp] theorem toRat_neg (d : Decimal) : d.neg.toRat = -d.toRat := by
  simp [toRat, neg]

/-! ### Scales of 64 bits -/

theorem scaleFits_iff {scale : ℤ} : scaleFits scale ↔ (Int64.ofInt scale).toInt = scale := by
  rw [scaleFits, Bool.and_eq_true, decide_eq_true_iff, decide_eq_true_iff]
  constructor
  · rintro ⟨hleast, hgreatest⟩
    exact Int64.toInt_ofInt_of_le hleast (Int.lt_of_le_sub_one hgreatest)
  · intro h
    rw [← h]
    exact ⟨Int64.minValue_le_toInt _, Int64.toInt_le _⟩

theorem scaleFits_max {m n : ℤ} (hm : scaleFits m) (hn : scaleFits n) : scaleFits (max m n) := by
  rcases max_choice m n with h | h
  · rwa [h]
  · rwa [h]

theorem scaleFits_sub {a b : Decimal} (ha : scaleFits a.scale) (hb : scaleFits b.scale) :
    scaleFits (a.sub b).scale := by
  rw [sub]
  split
  · exact ha
  split
  · exact hb
  · exact scaleFits_max ha hb

theorem scaleFits_wrapped (d : Decimal) : scaleFits d.wrapped.scale := by
  rw [scaleFits_iff, wrapped, Int64.ofInt_toInt]

theorem wrapped_eq_self {d : Decimal} (h : scaleFits d.scale) : d.wrapped = d := by
  rw [wrapped, scaleFits_iff.mp h]

theorem toRat_wrapped_eq_iff {d : Decimal} :
    d.wrapped.toRat = d.toRat ↔ scaleFits d.scale ∨ d.toRat = 0 := by
  have hinjective := zpow_right_injective₀ (show (0 : ℚ) < 10 by norm_num) (by norm_num)
  have hpow : (10 : ℚ) ^ (-d.scale) ≠ 0 := by positivity
  have hscale : (10 : ℚ) ^ (-(Int64.ofInt d.scale).toInt) = 10 ^ (-d.scale) ↔
      (Int64.ofInt d.scale).toInt = d.scale := hinjective.eq_iff.trans neg_inj
  have hzero : d.toRat = 0 ↔ (d.unscaled : ℚ) = 0 := by
    rw [toRat, mul_eq_zero, or_iff_left hpow]
  rw [hzero, scaleFits_iff, ← hscale]
  exact mul_eq_mul_left_iff

/-! ### Signs -/

def signedBy (negative : Bool) (n : ℕ) : Int := if negative then -n else n

@[simp] theorem signedBy_true (n : ℕ) : signedBy true n = -n := rfl

@[simp] theorem signedBy_false (n : ℕ) : signedBy false n = n := rfl

@[simp] theorem signedBy_zero (negative : Bool) : signedBy negative 0 = 0 := by
  cases negative <;> rfl

@[simp] theorem natAbs_signedBy (negative : Bool) (n : ℕ) : (signedBy negative n).natAbs = n := by
  cases negative <;> simp

theorem signedBy_natAbs (n : Int) : signedBy (n < 0) n.natAbs = n := by
  by_cases hneg : n < 0
  · simp only [signedBy, hneg, decide_true, if_true]
    omega
  · simp only [signedBy, hneg, decide_false, Bool.false_eq_true, if_false]
    omega

end ObjectQuery.Decimal
