import ObjectQuery.Proofs.Number.Rereading
import ObjectQuery.Proofs.Value.Symmetry
import Mathlib.Algebra.Order.Group.Defs

/-!
The order of numbers of any kinds. Main statement: two finite numbers are ordered as the sign of
their difference says, and are equal exactly if it is zero, unless they are a single and a double
that lies between the single and the double read from its shortest digits. Arithmetic takes the one
of these, comparison the other.
-/

namespace ObjectQuery

/-! ### Differences of decimals -/

namespace Decimal

@[simp] theorem toRat_sub (a b : Decimal) : (a.sub b).toRat = a.toRat - b.toRat := by
  have hzero : ∀ d : Decimal, d.isZero → d.toRat = 0 := by
    intro d hd
    simp [toRat, show d.unscaled = 0 by simpa [isZero] using hd]
  rw [sub]
  split
  · rename_i hb
    rw [hzero b hb, sub_zero]
  · split
    · rename_i ha
      rw [hzero a ha, zero_sub, toRat_neg]
    · rw [← unscaledAt_mul_zpow (le_max_left a.scale b.scale),
        ← unscaledAt_mul_zpow (le_max_right a.scale b.scale), ← sub_mul, ← Int.cast_sub]
      rfl

theorem compare_toRat_zero (d : Decimal) : Ord.compare d.toRat 0 = Ord.compare d.unscaled 0 := by
  have hmono : StrictMono fun n : ℤ => (n : ℚ) * 10 ^ (-d.scale) := by
    intro m n hmn
    exact mul_lt_mul_of_pos_right (Int.cast_lt.mpr hmn) (by positivity)
  have hmap := hmono.cmp_map_eq d.unscaled 0
  rw [cmp_eq_compare, cmp_eq_compare] at hmap
  simpa only [toRat, Int.cast_zero, zero_mul] using hmap

theorem compare_sub (a b : Decimal) : Ord.compare (a.sub b).unscaled 0 = a.compare b := by
  rw [← compare_toRat_zero, toRat_sub, compare_eq_toRat, ← cmp_eq_compare, ← cmp_eq_compare,
    cmp_sub_zero]

end Decimal

/-! ### Numbers of any kinds -/

namespace Value

theorem isNull_of_isNumeric {value : Value} (h : value.isNumeric) : value.isNull = false := by
  cases value <;> first | rfl | cases h

/-- A number that is no binary one: an integer or a decimal. -/
def IsExact (value : Value) : Prop := value.isNumeric ∧ value.binary? = none

/-- A decimal among the values has a scale of the size that scales have. -/
def ScaleFits : Value → Prop
  | decimal d => Decimal.scaleFits d.scale
  | _ => True

theorem toDouble?_of_binary? {value : Value} {x : Double} (h : value.binary? = some x) :
    value.toDouble? = some x := by
  cases value <;> first | exact h | cases h

theorem exists_toDecimal?_of_isExact {value : Value} (h : value.IsExact) :
    ∃ d, value.toDecimal? = some d := by
  obtain ⟨hnumeric, hbinary⟩ := h
  cases value with
  | float x | double x => cases hbinary
  | _ => first | exact ⟨_, rfl⟩ | cases hnumeric

theorem toDecimal?_of_boundedIntegral? {value : Value} {n : ℤ}
    (h : value.boundedIntegral? = some n) : value.toDecimal? = some (.ofInt n) := by
  cases value <;> first | cases h; rfl | cases h

theorem binary?_of_boundedIntegral? {value : Value} {n : ℤ}
    (h : value.boundedIntegral? = some n) : value.binary? = none := by
  cases value <;> first | rfl | cases h

theorem compareNumbers?_of_binary? {left right : Value} {x y : Double}
    (hleft : left.binary? = some x) (hright : right.binary? = some y) :
    left.compareNumbers? right = x.compare? y := by
  rw [compareNumbers?, hleft, hright]
  cases hbounded : left.boundedIntegral? with
  | none => rfl
  | some n =>
    rw [binary?_of_boundedIntegral? hbounded] at hleft
    cases hleft

theorem compareNumbers?_eq_decimals {left right : Value}
    (h : left.binary? = none ∨ right.binary? = none) :
    left.compareNumbers? right =
      (do return (← left.toDecimal?).compare (← right.toDecimal?)) := by
  rw [compareNumbers?]
  cases hleft : left.boundedIntegral? <;> cases hright : right.boundedIntegral?
  case some.some l r =>
    rw [toDecimal?_of_boundedIntegral? hleft, toDecimal?_of_boundedIntegral? hright]
    refine congrArg some ?_
    rw [Decimal.compare_eq_toRat, Decimal.toRat_ofInt, Decimal.toRat_ofInt, ← cmp_eq_compare,
      ← cmp_eq_compare]
    exact (Int.cast_strictMono.cmp_map_eq l r).symm
  all_goals
    rcases h with h | h
    · rw [h]
    · rw [h]
      cases left.binary? <;> rfl

theorem isFinite_of_toDecimal? {value : Value} {x : Double} {d : Decimal}
    (hbinary : value.binary? = some x) (hdecimal : value.toDecimal? = some d) : x.isFinite := by
  cases value <;> cases hbinary
  · rename_i y
    cases y with
    | nan | infinite => cases hdecimal
    | finite s m hm => exact Binary.isFinite_convert BinaryFormat.single_widens_double rfl
  · cases x <;> first | rfl | cases hdecimal

theorem toDecimal?_eq_none {value : Value} {x : Double} (hbinary : value.binary? = some x)
    (hx : x.isFinite = false) : value.toDecimal? = none := by
  cases hdecimal : value.toDecimal? with
  | none => rfl
  | some d => rw [isFinite_of_toDecimal? hbinary hdecimal] at hx; cases hx

theorem finite_or_binary? {value : Value} (h : value.isNumeric) :
    (∃ d, value.toDecimal? = some d) ∨ (∃ negative, value.binary? = some (.infinite negative)) ∨
      value.binary? = some .nan := by
  cases hbinary : value.binary? with
  | none => exact .inl (exists_toDecimal?_of_isExact ⟨h, hbinary⟩)
  | some x =>
    cases x with
    | nan => exact .inr (.inr rfl)
    | infinite negative => exact .inr (.inl ⟨negative, rfl⟩)
    | finite s m hm =>
      refine .inl ?_
      cases value with
      | float y =>
        cases y with
        | nan | infinite => cases hbinary
        | finite => exact ⟨_, rfl⟩
      | double y =>
        obtain rfl := Option.some.inj hbinary
        exact ⟨_, rfl⟩
      | _ => cases hbinary

/-- A single beside a double. -/
def mixed : Value → Value → Bool
  | float _, double _ | double _, float _ => true
  | _, _ => false

theorem compareNumbers?_eq_compare {left right : Value} (h : mixed left right = false)
    {a b : Decimal} (ha : left.toDecimal? = some a) (hb : right.toDecimal? = some b) :
    left.compareNumbers? right = some (a.compare b) := by
  by_cases hbinary : left.binary? = none ∨ right.binary? = none
  · rw [compareNumbers?_eq_decimals hbinary, ha, hb]
    rfl
  cases left with
  | float x =>
    cases right with
    | float y =>
      rw [compareNumbers?_of_binary? rfl rfl,
        Binary.compare?_convert BinaryFormat.single_widens_double]
      exact Binary.compare?_eq_compare BinaryFormat.single_searchable ha hb
    | double y => cases h
    | _ => exact absurd (.inr rfl) hbinary
  | double x =>
    cases right with
    | float y => cases h
    | double y =>
      rw [compareNumbers?_of_binary? rfl rfl]
      exact Binary.compare?_eq_compare BinaryFormat.double_searchable ha hb
    | _ => exact absurd (.inr rfl) hbinary
  | _ => exact absurd (.inl rfl) hbinary

end Value

/-! ### A single beside a double -/

/-- The double that is read from the shortest digits of a single. -/
def Binary.reread (x : Single) : Double :=
  match Decimal.ofBinary? x with
  | some d => d.toDouble
  | none => x.convert

/-- The second number lies between the others, or on one of them. -/
def Binary.Between (x y z : Double) : Prop :=
  (x.compare? y).any Ordering.isLE ∧ (y.compare? z).any Ordering.isLE

/-- A double lies between a single and the double read from its digits, if these are two. -/
def Binary.Parts (y : Double) (x : Single) : Prop :=
  (x.convert : Double).beq x.reread = false ∧
    (Between x.convert y x.reread ∨ Between x.reread y x.convert)

namespace Binary

instance (x y z : Double) : Decidable (Between x y z) := inferInstanceAs (Decidable (_ ∧ _))

instance (y : Double) (x : Single) : Decidable (y.Parts x) := inferInstanceAs (Decidable (_ ∧ _))

variable {f : BinaryFormat}

theorem exists_rank? {x : Binary f} (h : x.isFinite) : ∃ rank, x.rank? = some rank := by
  cases x with
  | nan | infinite => cases h
  | finite negative units fits => exact ⟨_, rfl⟩

theorem compare?_of_rank? {x y : Binary f} {m n : ℤ} (hx : x.rank? = some m)
    (hy : y.rank? = some n) : x.compare? y = some (compare m n) := by
  rw [compare?, hx, hy]
  rfl

theorem compare?_reread_iff {x : Single} {y : Double} (hvalue : (x.convert : Double).isFinite)
    (hreread : x.reread.isFinite) (hy : y.isFinite) :
    x.reread.compare? y = (x.convert : Double).compare? y ↔ ¬ y.Parts x := by
  obtain ⟨m, hm⟩ := exists_rank? hvalue
  obtain ⟨n, hn⟩ := exists_rank? hreread
  obtain ⟨r, hr⟩ := exists_rank? hy
  have hparts : y.Parts x ↔ m ≠ n ∧ (m ≤ r ∧ r ≤ n ∨ n ≤ r ∧ r ≤ m) := by
    rw [Parts, Between, Between, beq, compare?_of_rank? hm hn, compare?_of_rank? hm hr,
      compare?_of_rank? hr hn, compare?_of_rank? hn hr, compare?_of_rank? hr hm]
    simp [Std.isLE_compare]
  rw [hparts, compare?_of_rank? hn hr, compare?_of_rank? hm hr, Option.some_inj]
  rcases lt_trichotomy m r with h | h | h <;> rcases lt_trichotomy n r with h' | h' | h' <;>
    simp only [compare_lt_iff_lt.mpr, compare_gt_iff_gt.mpr, compare_eq_iff_eq.mpr, h, h'] <;>
    simp <;> omega

end Binary

namespace Value

/-- A number that is neither an infinity nor not-a-number. -/
def IsFinite (value : Value) : Prop :=
  value.isNumeric ∧ ∀ x, value.binary? = some x → x.isFinite

theorem isFinite_double {x : Double} (h : x.isFinite) : (double x).IsFinite :=
  ⟨rfl, fun _ hx => Option.some.inj hx ▸ h⟩

theorem isFinite_float {x : Single} (h : x.isFinite) : (float x).IsFinite := by
  refine ⟨rfl, fun y hy => ?_⟩
  obtain rfl := Option.some.inj hy
  exact Binary.isFinite_convert BinaryFormat.single_widens_double h

theorem IsFinite.exists_toDecimal? {value : Value} (h : value.IsFinite) :
    ∃ d, value.toDecimal? = some d := by
  rcases finite_or_binary? h.1 with hdecimal | ⟨negative, hinfinite⟩ | hnan
  · exact hdecimal
  · cases h.2 _ hinfinite
  · cases h.2 _ hnan

/-- A number as arithmetic takes it: a single counts as the double read from its digits. -/
def reread : Value → Value
  | float x => double x.reread
  | value => value

/-- Whether two numbers are a single and a double that parts it from its digits. -/
def Parted : Value → Value → Prop
  | float x, double y | double y, float x => y.Parts x
  | _, _ => False

theorem mixed_reread (left right : Value) : mixed left.reread right.reread = false := by
  cases left <;> cases right <;> rfl

theorem toDecimal?_reread {value : Value} {a : Decimal} (h : value.toDecimal? = some a) :
    ∃ b, value.reread.toDecimal? = some b ∧ b.toRat = a.toRat := by
  cases value with
  | float x =>
    obtain ⟨b, hb, hrat⟩ := Decimal.toDouble_ofBinary? h
    have hread : x.reread = a.toDouble := by
      rw [Binary.reread, show Decimal.ofBinary? x = some a from h]
    exact ⟨b, by rw [reread, hread]; exact hb, hrat⟩
  | _ => exact ⟨a, h, rfl⟩

theorem isFinite_reread {x : Single} {a : Decimal} (h : (float x).toDecimal? = some a) :
    x.reread.isFinite := by
  obtain ⟨b, hb, -⟩ := toDecimal?_reread h
  exact isFinite_of_toDecimal? rfl hb

theorem compareNumbers?_reread {left right : Value} {a b : Decimal}
    (ha : left.toDecimal? = some a) (hb : right.toDecimal? = some b) :
    left.reread.compareNumbers? right.reread = some (a.compare b) := by
  obtain ⟨a', ha', harat⟩ := toDecimal?_reread ha
  obtain ⟨b', hb', hbrat⟩ := toDecimal?_reread hb
  rw [compareNumbers?_eq_compare (mixed_reread left right) ha' hb', Decimal.compare_eq_toRat,
    Decimal.compare_eq_toRat, harat, hbrat]

/-- Reading singles from their digits changes the order only of numbers that are parted. -/
theorem compareNumbers?_reread_iff {left right : Value} {a b : Decimal}
    (ha : left.toDecimal? = some a) (hb : right.toDecimal? = some b) :
    left.reread.compareNumbers? right.reread = left.compareNumbers? right ↔
      ¬ Parted left right := by
  cases hmixed : mixed left right with
  | false =>
    have hparted : ¬ Parted left right := by
      cases left <;> cases right <;> first | exact id | cases hmixed
    rw [compareNumbers?_reread ha hb, compareNumbers?_eq_compare hmixed ha hb]
    exact iff_of_true rfl hparted
  | true =>
    cases left with
    | float x =>
      cases right with
      | double y =>
        rw [compareNumbers?_of_binary? rfl rfl, compareNumbers?_of_binary? rfl rfl]
        exact Binary.compare?_reread_iff (isFinite_of_toDecimal? rfl ha)
          (isFinite_reread ha) (isFinite_of_toDecimal? rfl hb)
      | _ => cases hmixed
    | double y =>
      cases right with
      | float x =>
        have hswap : Function.Injective Ordering.swap :=
          Function.LeftInverse.injective fun _ => Ordering.swap_swap
        rw [compareNumbers?_of_binary? rfl rfl, compareNumbers?_of_binary? rfl rfl,
          Binary.compare?_swap x.reread y, Binary.compare?_swap x.convert y,
          (Option.map_injective hswap).eq_iff]
        exact Binary.compare?_reread_iff (isFinite_of_toDecimal? rfl hb)
          (isFinite_reread hb) (isFinite_of_toDecimal? rfl ha)
      | _ => cases hmixed
    | _ => cases hmixed

theorem applyArithmetic_sub {left right : Value} {a b : Decimal}
    (ha : left.toDecimal? = some a) (hb : right.toDecimal? = some b) :
    applyArithmetic .sub left right = .ok (decimal (a.sub b)) := by
  simp only [applyArithmetic, finiteDecimal, ha, hb]
  rfl

theorem looseEq_eq_compareNumbers? {left right : Value} (hleft : left.isNumeric)
    (hright : right.isNumeric) :
    left.looseEq right = (left.compareNumbers? right == some .eq) := by
  have hatom : left.IsAtom := by
    cases left <;> first | exact trivial | cases hleft
  rw [looseEq_of_isAtom hatom, if_pos (by simp [hleft, hright])]

/-- The difference of two finite numbers is a decimal. Its sign is the order of the numbers, where a
single counts as the double read from its shortest digits. It is the order in which the numbers
themselves are compared, if and only if they are not a single and a double that lies between these
two; and then the numbers are equal exactly if the difference is zero. -/
theorem order_eq_sign_of_difference (left right : Value) (hleft : left.IsFinite)
    (hright : right.IsFinite) :
    ∃ d : Decimal, applyArithmetic .sub left right = .ok (decimal d) ∧
      left.reread.compareNumbers? right.reread = some (compare d.unscaled 0) ∧
      (left.compareNumbers? right = some (compare d.unscaled 0) ↔ ¬ Parted left right) ∧
      (¬ Parted left right → left.looseEq right = d.isZero) := by
  obtain ⟨a, ha⟩ := hleft.exists_toDecimal?
  obtain ⟨b, hb⟩ := hright.exists_toDecimal?
  have hreread := compareNumbers?_reread ha hb
  have hiff : left.compareNumbers? right = some (a.compare b) ↔ ¬ Parted left right := by
    rw [← compareNumbers?_reread_iff ha hb, hreread, eq_comm]
  refine ⟨a.sub b, applyArithmetic_sub ha hb, ?_, ?_, fun hparted => ?_⟩
  · rw [Decimal.compare_sub, hreread]
  · rw [Decimal.compare_sub, hiff]
  · rw [looseEq_eq_compareNumbers? hleft.1 hright.1, hiff.mpr hparted, ← Decimal.compare_sub,
      Decimal.isZero, Bool.eq_iff_iff]
    simp

/-- A tenth as a single is not the double read from it, but a fifth lies beyond both. -/
theorem order_eq_sign_of_difference_tenthFifth :
    let x : Value := float (.ofRatio false 1 10)
    let y : Value := double (.ofRatio false 1 5)
    x.IsFinite ∧ y.IsFinite ∧ ¬ Parted x y ∧
      ∃ d : Decimal, applyArithmetic .sub x y = .ok (decimal d) ∧
        x.compareNumbers? y = some (compare d.unscaled 0) ∧ x.looseEq y = d.isZero := by
  intro x y
  have hx : x.IsFinite := isFinite_float (by decide +kernel)
  have hy : y.IsFinite := isFinite_double (by decide +kernel)
  have hparted : ¬ (Binary.ofRatio false 1 5 : Double).Parts (.ofRatio false 1 10) := by
    decide +kernel
  obtain ⟨d, hsub, -, horder, hequal⟩ := order_eq_sign_of_difference x y hx hy
  exact ⟨hx, hy, hparted, d, hsub, horder.mpr hparted, hequal hparted⟩

/-- A single and a double of the same digits differ in value, but not in their digits. -/
theorem order_of_tenths :
    let x : Value := float (.ofRatio false 1 10)
    let y : Value := double (.ofRatio false 1 10)
    x.compareNumbers? y = some .gt ∧ x.looseEq y = false ∧
      (match applyArithmetic .sub x y with
        | .ok (decimal d) => d.isZero
        | _ => false) = true := by
  decide +kernel

end Value

end ObjectQuery
