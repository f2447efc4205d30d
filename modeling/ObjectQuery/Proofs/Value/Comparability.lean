import ObjectQuery.Proofs.Cursor.KeyOrder

/-!
Values that have an order. Main statements: numbers, texts and characters, and booleans have orders
among themselves, and no other values do; the equality of the operators agrees with the order, and
so does the order of sort keys. Numbers have an order unless one of them is not-a-number, or an
infinity beside an integer or a decimal.
-/

namespace ObjectQuery

namespace Value

variable {a b : Value} {sense : Ordering}

/-- Two values that have an order. -/
def Comparable (a b : Value) : Prop := (a.compare? b).isSome

/-- The first value stands to the second as wanted: below it, or above it. -/
def Precedes (sense : Ordering) (a b : Value) : Prop := a.compare? b = some sense

instance (sense : Ordering) (a b : Value) : Decidable (a.Precedes sense b) :=
  inferInstanceAs (Decidable (_ = _))

theorem Precedes.comparable (h : a.Precedes sense b) : a.Comparable b := by
  rw [Comparable, h]
  rfl

theorem Comparable.symm (h : a.Comparable b) : b.Comparable a := by
  rw [Comparable, compare?_swap a b, Option.isSome_map]
  exact h

theorem precedes_swap : b.Precedes sense.swap a ↔ a.Precedes sense b := by
  rw [Precedes, Precedes, compare?_swap a b]
  cases a.compare? b with
  | none => simp
  | some order => cases order <;> cases sense <;> simp

theorem Precedes.asymm (hsense : sense ≠ .eq) (h : a.Precedes sense b) : ¬ b.Precedes sense a := by
  intro hback
  have hswap : b.Precedes sense.swap a := precedes_swap.mpr h
  rw [Precedes] at hback hswap
  rw [hback] at hswap
  cases sense <;> first | exact hsense rfl | cases hswap

theorem not_precedes_self (hsense : sense ≠ .eq) : ¬ a.Precedes sense a :=
  fun h => h.asymm hsense h

theorem compare?_of_isNumeric (ha : a.isNumeric) (hb : b.isNumeric) :
    a.compare? b = a.compareNumbers? b := by
  have hnumbers : (if a.isNumeric && b.isNumeric then compareNumbers? a b else none) =
      a.compareNumbers? b := by
    rw [ha, hb]
    rfl
  cases a <;> first | exact hnumbers | cases ha

theorem comparable_cases (h : a.Comparable b) :
    (a.isNumeric ∧ b.isNumeric) ∨
      (∃ s t, TextMethod.text? a = some s ∧ TextMethod.text? b = some t) ∨
      ∃ p q, a = .boolean p ∧ b = .boolean q := by
  by_cases hnumeric : a.isNumeric ∧ b.isNumeric
  · exact .inl hnumeric
  right
  have hrest : (if a.isNumeric && b.isNumeric then compareNumbers? a b else none) = none := by
    rw [if_neg (by simpa using hnumeric)]
  cases a with
  | string _ | char _ =>
    left
    cases b with
    | string _ | char _ => exact ⟨_, _, rfl, rfl⟩
    | _ => cases h
  | boolean p =>
    cases b with
    | boolean q => exact .inr ⟨p, q, rfl, rfl⟩
    | _ => cases h
  | _ => first | cases h | exact absurd (hrest ▸ h : (none : Option Ordering).isSome) nofun

/-! ### The equality of the operators -/

theorem looseEq_eq_of_text? {s t : String} (ha : TextMethod.text? a = some s)
    (hb : TextMethod.text? b = some t) : a.looseEq b = (s == t) := by
  cases a with
  | string s' =>
    obtain rfl := Option.some.inj ha
    cases b with
    | string t' =>
      obtain rfl := Option.some.inj hb
      simp [looseEq, strictEq, isNumeric, isIntegral]
    | char d =>
      obtain rfl := Option.some.inj hb
      rw [Bool.eq_iff_iff]
      simp [looseEq, isCharText, ← String.toList_inj]
    | _ => cases hb
  | char c =>
    obtain rfl := Option.some.inj ha
    cases b with
    | string t' =>
      obtain rfl := Option.some.inj hb
      rw [Bool.eq_iff_iff, beq_iff_eq, eq_comm (a := c.toString)]
      simp [looseEq, isCharText, ← String.toList_inj]
    | char d =>
      obtain rfl := Option.some.inj hb
      rw [Bool.eq_iff_iff]
      simp [looseEq, strictEq, isNumeric, isIntegral]
    | _ => cases hb
  | _ => cases ha

theorem beq_eq_of_compare {α : Type} [Ord α] [DecidableEq α] [Std.LawfulEqOrd α] {x y : α}
    {order : Ordering} (h : compare x y = order) : (x == y) = (order == .eq) := by
  rw [Bool.eq_iff_iff, beq_iff_eq, beq_iff_eq, ← h, Std.LawfulEqOrd.compare_eq_iff_eq]

theorem looseEq_eq_of_compare? {order : Ordering} (h : a.compare? b = some order) :
    a.looseEq b = (order == .eq) := by
  rcases comparable_cases (Precedes.comparable h) with ⟨ha, hb⟩ | ⟨s, t, hs, ht⟩ | ⟨p, q, rfl, rfl⟩
  · rw [looseEq_eq_compareNumbers? ha hb, ← compare?_of_isNumeric ha hb, h]
    cases order <;> rfl
  · rw [SortKey.compare?_of_text? hs ht, Option.some_inj] at h
    rw [looseEq_eq_of_text? hs ht, beq_eq_of_compare h]
  · have hpq : compare p q = order := Option.some.inj h
    rw [← beq_eq_of_compare hpq]
    simp [looseEq, strictEq, isNumeric, isIntegral]

theorem isNull_of_compare? {order : Ordering} (h : a.compare? b = some order) :
    a.isNull = false := by
  cases a with
  | null => cases b <;> cases h
  | _ => rfl

theorem looseEq_of_not_precedes (hsense : sense ≠ .eq) (h : a.Comparable b)
    (hab : ¬ a.Precedes sense b) (hba : ¬ b.Precedes sense a) : a.looseEq b := by
  obtain ⟨order, horder⟩ := Option.isSome_iff_exists.mp h
  rw [← precedes_swap] at hba
  rw [Precedes, horder, Option.some_inj] at hab hba
  obtain rfl : order = .eq := by
    cases order <;> cases sense <;> simp_all
  exact looseEq_eq_of_compare? horder

/-! ### The order of sort keys -/

theorem kindRank_of_text? {s : String} (h : TextMethod.text? a = some s) :
    SortKey.kindRank a = 1 := by
  cases a <;> first | rfl | cases h

theorem kindRank_of_comparable (h : a.Comparable b) :
    SortKey.kindRank b = SortKey.kindRank a ∧ SortKey.kindRank a ≤ 2 := by
  rcases comparable_cases h with ⟨ha, hb⟩ | ⟨s, t, hs, ht⟩ | ⟨p, q, rfl, rfl⟩
  · rw [SortKey.kindRank_eq_zero_iff.mpr ha, SortKey.kindRank_eq_zero_iff.mpr hb]
    decide
  · rw [kindRank_of_text? hs, kindRank_of_text? ht]
    decide
  · exact ⟨rfl, Nat.le_refl 2⟩

theorem totalOrder_of_compare? {order : Ordering} (h : a.compare? b = some order) :
    SortKey.totalOrder a b = order := by
  obtain ⟨hkind, -⟩ := kindRank_of_comparable (Precedes.comparable h)
  rw [SortKey.totalOrder_eq_then, hkind, Nat.compare_eq_eq.mpr rfl, SortKey.kindOrder]
  split
  · rename_i hzero
    have ha : a.isNumeric := SortKey.kindRank_eq_zero_iff.mp hzero
    have hb : b.isNumeric := SortKey.kindRank_eq_zero_iff.mp (hkind.trans hzero)
    rw [compare?_of_isNumeric ha hb] at h
    rw [SortKey.numericOrder, h]
    rfl
  · rw [h]
    rfl

theorem comparable_of_isNumeric (ha : a.isNumeric) (hb : b.isNumeric)
    (haNan : a.binary? ≠ some .nan) (hbNan : b.binary? ≠ some .nan)
    (hab : a.IsExact → ∀ negative, b.binary? ≠ some (.infinite negative))
    (hba : b.IsExact → ∀ negative, a.binary? ≠ some (.infinite negative)) : a.Comparable b := by
  have hdecimal : ∀ {value : Value}, value.isNumeric → value.binary? ≠ some .nan →
      (∀ negative, value.binary? ≠ some (.infinite negative)) → ∃ d, value.toDecimal? = some d := by
    intro value hnumeric hnan hinfinite
    rcases finite_or_binary? hnumeric with hdecimal | ⟨negative, hnegative⟩ | hisNan
    · exact hdecimal
    · exact absurd hnegative (hinfinite negative)
    · exact absurd hisNan hnan
  rw [Comparable, compare?_of_isNumeric ha hb]
  by_cases hbinary : a.binary? = none ∨ b.binary? = none
  · have hboth : ∃ d e, a.toDecimal? = some d ∧ b.toDecimal? = some e := by
      rcases hbinary with hnone | hnone
      · obtain ⟨d, hd⟩ := exists_toDecimal?_of_isExact ⟨ha, hnone⟩
        obtain ⟨e, he⟩ := hdecimal hb hbNan (hab ⟨ha, hnone⟩)
        exact ⟨d, e, hd, he⟩
      · obtain ⟨d, hd⟩ := hdecimal ha haNan (hba ⟨hb, hnone⟩)
        obtain ⟨e, he⟩ := exists_toDecimal?_of_isExact ⟨hb, hnone⟩
        exact ⟨d, e, hd, he⟩
    obtain ⟨d, e, hd, he⟩ := hboth
    rw [compareNumbers?_eq_decimals hbinary, hd, he]
    rfl
  · obtain ⟨hx, hy⟩ := not_or.mp hbinary
    obtain ⟨x, hx⟩ := Option.ne_none_iff_exists'.mp hx
    obtain ⟨y, hy⟩ := Option.ne_none_iff_exists'.mp hy
    rw [compareNumbers?_of_binary? hx hy]
    cases x with
    | nan => exact absurd hx haNan
    | _ =>
      cases y with
      | nan => exact absurd hy hbNan
      | _ => rfl

end Value

end ObjectQuery
