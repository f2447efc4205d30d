import Mathlib.Data.Int.ConditionallyCompleteOrder
import Mathlib.Order.Compare
import Mathlib.Tactic.Linarith
import Mathlib.Tactic.Ring
import ObjectQuery.Number.Binary

/-!
Numbers of a format as numbers of a wider one. Main statement: nothing is rounded, so that numbers
are ordered as before.
-/

namespace ObjectQuery

theorem roundHalfEven_mul {denominator : ℕ} (hpos : 0 < denominator) (quotient : ℕ) :
    roundHalfEven (denominator * quotient) denominator = quotient := by
  rw [roundHalfEven, Nat.mul_div_cancel_left quotient hpos, Nat.mul_mod_right]
  have hne : denominator ≠ 0 := hpos.ne'
  simp [hne.symm]

namespace BinaryFormat

/-- Every magnitude of the first format is one of the second, whose unit is so many times halved. -/
structure Widens (f g : BinaryFormat) (halvings : ℕ) : Prop where
  precision : f.precision ≤ g.precision
  fractionBits : g.fractionBits = f.fractionBits + halvings
  magnitudeBits : f.magnitudeBits + halvings ≤ g.magnitudeBits

theorem single_widens_double : single.Widens double 925 := ⟨by decide, by decide, by decide⟩

variable {f g : BinaryFormat} {k n : ℕ}

theorem spacing_mul_two_pow_le (h : f.Widens g k) (hpos : 0 < n) :
    g.spacing (n * 2 ^ k) ≤ f.spacing n + k := by
  have hlog : (n * 2 ^ k).log2 = n.log2 + k := by
    refine (Nat.log2_eq_iff (by positivity)).mpr ⟨?_, ?_⟩
    · rw [pow_add]
      exact Nat.mul_le_mul_right _ (Nat.log2_self_le hpos.ne')
    · rw [Nat.add_right_comm, pow_add]
      exact Nat.mul_lt_mul_of_pos_right Nat.lt_log2_self (Nat.two_pow_pos k)
  have := h.precision
  simp only [spacing, hlog]
  omega

theorem Fits.widen (h : f.Widens g k) (hn : f.Fits n) : g.Fits (n * 2 ^ k) := by
  rcases Nat.eq_zero_or_pos n with rfl | hpos
  · rw [Nat.zero_mul]
    exact g.fits_zero
  constructor
  · have hlt : n * 2 ^ k < 2 ^ (f.magnitudeBits + k) := by
      rw [pow_add]
      exact Nat.mul_lt_mul_of_pos_right hn.1 (Nat.two_pow_pos k)
    exact hlt.trans_le (Nat.pow_le_pow_right (by decide) h.magnitudeBits)
  · have hdvd : 2 ^ (f.spacing n + k) ∣ n * 2 ^ k := by
      rw [pow_add]
      exact Nat.mul_dvd_mul_right hn.2 _
    exact (Nat.pow_dvd_pow 2 (spacing_mul_two_pow_le h hpos)).trans hdvd

end BinaryFormat

namespace Binary

variable {f g : BinaryFormat} {k : ℕ}

theorem roundUnits_mul {n denominator : ℕ} (hn : f.Fits n) (hpos : 0 < denominator) :
    roundUnits f (denominator * n) denominator = n := by
  have hgap : 0 < Nat.pow 2 (f.spacing n) := Nat.two_pow_pos _
  obtain ⟨q, hq⟩ := hn.2
  rw [roundUnits, Nat.mul_div_cancel_left _ hpos]
  nth_rewrite 1 [hq]
  rw [← Nat.mul_assoc, roundHalfEven_mul (Nat.mul_pos hpos hgap), Nat.mul_comm q, ← hq]

theorem convert_finite (h : f.Widens g k) (negative : Bool) {units : ℕ} (fits : f.Fits units) :
    (finite negative units fits).convert = finite negative (units * 2 ^ k) (fits.widen h) := by
  have hfits := fits.widen h
  have hnumerator : units * Nat.pow 2 g.fractionBits =
      Nat.pow 2 f.fractionBits * (units * 2 ^ k) := by
    rw [h.fractionBits, Nat.pow_eq, Nat.pow_eq, pow_add]
    exact Nat.mul_left_comm _ _ _
  have hpos : 0 < Nat.pow 2 f.fractionBits := Nat.two_pow_pos _
  rw [convert, ofRatio, hnumerator, roundUnits_mul hfits hpos, ofUnits, dif_pos hfits]

/-- A finite number is unchanged when it has been turned into a wider format and back. -/
theorem convert_convert (h : f.Widens g k) {x : Binary f} (hx : x.isFinite) :
    (x.convert : Binary g).convert = x := by
  cases x with
  | nan | infinite => cases hx
  | finite negative units fits =>
    have hnumerator : units * 2 ^ k * Nat.pow 2 f.fractionBits =
        Nat.pow 2 g.fractionBits * units := by
      rw [h.fractionBits, Nat.pow_eq, Nat.pow_eq, pow_add]
      ring
    have hpos : 0 < Nat.pow 2 g.fractionBits := Nat.two_pow_pos _
    rw [convert_finite h, convert, ofRatio, hnumerator, roundUnits_mul fits hpos, ofUnits,
      dif_pos fits]

theorem convert_self {x : Binary f} (hx : x.isFinite) : x.convert = x := by
  have hwidens : f.Widens f 0 := ⟨le_rfl, rfl, le_rfl⟩
  cases x with
  | nan | infinite => cases hx
  | finite negative units fits => simp [convert_finite hwidens]

theorem isFinite_convert (h : f.Widens g k) {x : Binary f} (hx : x.isFinite) :
    (x.convert : Binary g).isFinite := by
  cases x with
  | nan | infinite => cases hx
  | finite negative units fits => rw [convert_finite h]; rfl

/-- The rank in the wider format: finite ranks are scaled, and infinities stay at the ends. -/
def widenedRank (f g : BinaryFormat) (k : ℕ) (rank : ℤ) : ℤ :=
  if rank ≤ -Nat.pow 2 f.magnitudeBits then -Nat.pow 2 g.magnitudeBits
  else if (Nat.pow 2 f.magnitudeBits : ℤ) ≤ rank then Nat.pow 2 g.magnitudeBits
  else rank * 2 ^ k

theorem widenedRank_strictMonoOn (h : f.Widens g k) :
    StrictMonoOn (widenedRank f g k)
      (Set.Icc (-(Nat.pow 2 f.magnitudeBits : ℤ)) (Nat.pow 2 f.magnitudeBits)) := by
  have hbounds : (Nat.pow 2 f.magnitudeBits : ℤ) * 2 ^ k ≤ Nat.pow 2 g.magnitudeBits := by
    have : 2 ^ f.magnitudeBits * 2 ^ k ≤ 2 ^ g.magnitudeBits := by
      rw [← pow_add]
      exact Nat.pow_le_pow_right (by decide) h.magnitudeBits
    exact_mod_cast this
  have hbound : (0 : ℤ) < Nat.pow 2 f.magnitudeBits := by exact_mod_cast Nat.two_pow_pos _
  have hscale : (0 : ℤ) < 2 ^ k := by positivity
  rintro m ⟨hmlow, hmhigh⟩ n ⟨hnlow, hnhigh⟩ hlt
  simp only [widenedRank]
  generalize (Nat.pow 2 f.magnitudeBits : ℤ) = bound at *
  generalize (Nat.pow 2 g.magnitudeBits : ℤ) = bound' at *
  generalize (2 : ℤ) ^ k = scale at *
  have hwide : 0 < bound' := (mul_pos hbound hscale).trans_le hbounds
  rw [if_neg (by omega : ¬ n ≤ -bound)]
  split
  · split
    · omega
    · have := mul_lt_mul_of_pos_right (by omega : -bound < n) hscale
      linarith
  · rw [if_neg (by omega : ¬ bound ≤ m)]
    split
    · have := mul_lt_mul_of_pos_right (by omega : m < bound) hscale
      linarith
    · exact mul_lt_mul_of_pos_right hlt hscale

theorem rank?_mem_Icc {x : Binary f} {rank : ℤ} (h : x.rank? = some rank) :
    rank ∈ Set.Icc (-(Nat.pow 2 f.magnitudeBits : ℤ)) (Nat.pow 2 f.magnitudeBits) := by
  have hbound : (0 : ℤ) < Nat.pow 2 f.magnitudeBits := by exact_mod_cast Nat.two_pow_pos _
  cases x with
  | nan => cases h
  | infinite negative =>
    obtain rfl := Option.some.inj h
    cases negative <;> simp only [Bool.false_eq_true, if_true, if_false, Set.mem_Icc] <;> omega
  | finite negative units fits =>
    have hlt : (units : ℤ) < Nat.pow 2 f.magnitudeBits := by exact_mod_cast fits.1
    obtain rfl := Option.some.inj h
    cases negative <;> simp only [Bool.false_eq_true, if_true, if_false, Set.mem_Icc] <;> omega

theorem rank?_convert (h : f.Widens g k) (x : Binary f) :
    (x.convert : Binary g).rank? = x.rank?.map (widenedRank f g k) := by
  have hbound : (0 : ℤ) < Nat.pow 2 f.magnitudeBits := by exact_mod_cast Nat.two_pow_pos _
  cases x with
  | nan => rfl
  | infinite negative =>
    simp only [convert, rank?, Option.map_some, widenedRank]
    cases negative
    · simp only [Bool.false_eq_true, if_false]
      rw [if_neg (by omega), if_pos le_rfl]
    · simp
  | finite negative units fits =>
    have hlt : (units : ℤ) < Nat.pow 2 f.magnitudeBits := by exact_mod_cast fits.1
    rw [convert_finite h]
    simp only [rank?, Option.map_some, widenedRank]
    cases negative
    · simp only [Bool.false_eq_true, if_false]
      rw [if_neg (by omega), if_neg (by omega)]
      push_cast
      rfl
    · simp only [if_true]
      rw [if_neg (by omega), if_neg (by omega)]
      push_cast
      rw [neg_mul]

theorem compare?_convert (h : f.Widens g k) (x y : Binary f) :
    (x.convert : Binary g).compare? y.convert = x.compare? y := by
  rw [compare?, compare?, rank?_convert h, rank?_convert h]
  cases hx : x.rank? with
  | none => rfl
  | some m =>
    cases hy : y.rank? with
    | none => rfl
    | some n =>
      refine congrArg some ?_
      have hmap := (widenedRank_strictMonoOn h).cmp_map_eq (rank?_mem_Icc hx) (rank?_mem_Icc hy)
      rwa [cmp_eq_compare, cmp_eq_compare] at hmap

end Binary

end ObjectQuery
