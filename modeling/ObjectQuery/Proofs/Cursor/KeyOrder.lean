import ObjectQuery.Cursor.SortKey
import ObjectQuery.Proofs.Value.Comparison

/-!
The order of sort keys. Main statement: it is antisymmetric and reflexive on all keys, and
transitive on keys that are coherent, that is, where binary numbers of two formats beside an exact
number are ordered alike as binary numbers and by their digits, and no exact number beside an
infinity or a not-a-number turns into one of these as a double.
-/

namespace ObjectQuery

namespace Value

/-! ### Antisymmetry -/

theorem compare?_swap (left right : Value) :
    right.compare? left = (left.compare? right).map Ordering.swap := by
  have hnumbers : (if right.isNumeric && left.isNumeric then compareNumbers? right left else none) =
      (if left.isNumeric && right.isNumeric then compareNumbers? left right else none).map
        Ordering.swap := by
    rw [Bool.and_comm]
    split
    · exact compareNumbers?_swap left right
    · rfl
  cases left with
  | char c | string s | boolean b =>
    cases right <;> first | exact hnumbers | exact congrArg some Std.OrientedCmp.eq_swap
  | _ => cases right <;> exact hnumbers

end Value

namespace SortKey

theorem numericOrder_swap (left right : Value) :
    numericOrder right left = (numericOrder left right).swap := by
  rw [numericOrder, numericOrder, Value.compareNumbers?_swap left right]
  cases left.compareNumbers? right with
  | some order => rfl
  | none =>
    simp only [Option.map_none]
    generalize left.toDouble?.getD .nan = x
    generalize right.toDouble?.getD .nan = y
    cases x.isNan <;> cases y.isNan <;> try rfl
    simp only [Binary.compare?_swap x y]
    cases x.compare? y <;> rfl

theorem totalOrder_swap (left right : Value) :
    totalOrder right left = (totalOrder left right).swap := by
  have hrank : compare (kindRank right) (kindRank left) =
      (compare (kindRank left) (kindRank right)).swap := Std.OrientedCmp.eq_swap
  rw [totalOrder, totalOrder, hrank]
  cases hkind : compare (kindRank left) (kindRank right) with
  | lt | gt => rfl
  | eq =>
    rw [Nat.compare_eq_eq.mp hkind]
    simp only [Ordering.swap_eq]
    split
    · exact numericOrder_swap left right
    · rw [Value.compare?_swap left right]
      cases left.compare? right <;> rfl

theorem order_swap (key : SortKey) (left right : Value) :
    key.order right left = (key.order left right).swap := by
  rw [order, order, totalOrder_swap left right]
  cases left.isNull <;> cases right.isNull <;> simp only
  · split <;> rfl
  · split <;> rfl
  · split <;> rfl
  · rfl

theorem order_self (key : SortKey) (value : Value) : key.order value value = .eq := by
  have hswap := key.order_swap value value
  cases horder : key.order value value <;> rw [horder] at hswap <;> first | rfl | cases hswap

end SortKey

theorem Binary.compare?_infinite {f : BinaryFormat} {x : Binary f} (hx : x.isFinite)
    (negative : Bool) :
    x.compare? (.infinite negative) = some (if negative then .gt else .lt) := by
  cases x with
  | nan | infinite => cases hx
  | finite s m hm =>
    have hlt : (m : ℤ) < Nat.pow 2 f.magnitudeBits := by exact_mod_cast hm.1
    refine congrArg some ?_
    cases negative
    · refine compare_lt_iff_lt.mpr ?_
      cases s <;> simp only [Bool.false_eq_true, if_true, if_false] <;> omega
    · refine compare_gt_iff_gt.mpr ?_
      cases s <;> simp only [Bool.false_eq_true, if_true, if_false] <;> omega

theorem Binary.compare?_infinite_infinite (s t : Bool) :
    (infinite s : Double).compare? (infinite t) =
      some (compare (if s then -1 else 1 : ℤ) (if t then -1 else 1)) := by
  cases s <;> cases t <;> decide +kernel

namespace SortKey

open Value

/-- The place of a number: negative infinity, the finite numbers by a measure of theirs, infinity,
and not-a-number. -/
def place (measure : Value → ℚ) (value : Value) : ℤ × ℚ :=
  match value.binary? with
  | some .nan => (2, 0)
  | some (.infinite negative) => (if negative then -1 else 1, 0)
  | _ => (0, measure value)

def placeOrder (p q : ℤ × ℚ) : Ordering := (compare p.1 q.1).then (compare p.2 q.2)

instance : Std.TransCmp placeOrder :=
  inferInstanceAs
    (Std.TransCmp (compareLex (compareOn fun p : ℤ × ℚ => p.1) (compareOn fun p : ℤ × ℚ => p.2)))

/-- An exact number that, beside an infinity, is finite as a double, and beside not-a-number is not
that. -/
def Clear (exact other : Value) : Prop :=
  (∀ negative, other.binary? = some (.infinite negative) →
    (exact.toDouble?.getD .nan).isFinite) ∧
  (other.binary? = some .nan → (exact.toDouble?.getD .nan).isNan = false)

variable {measure : Value → ℚ} {left right : Value}

theorem place_of_toDecimal? {d : Decimal} (h : left.toDecimal? = some d) :
    place measure left = (0, measure left) := by
  rw [place]
  cases hbinary : left.binary? with
  | none => rfl
  | some x =>
    have hx := isFinite_of_toDecimal? hbinary h
    cases x with
    | nan | infinite => cases hx
    | finite => rfl

theorem compareNumbers?_eq_none_of_nan (h : right.binary? = some .nan) :
    left.compareNumbers? right = none := by
  cases hleft : left.binary? with
  | none =>
    rw [compareNumbers?_eq_decimals (.inl hleft), toDecimal?_eq_none h rfl]
    cases left.toDecimal? <;> rfl
  | some x =>
    rw [compareNumbers?_of_binary? hleft h]
    cases x <;> rfl

theorem compareNumbers?_eq_none_of_infinite {negative : Bool} (hleft : left.IsExact)
    (hright : right.binary? = some (.infinite negative)) : left.compareNumbers? right = none := by
  rw [compareNumbers?_eq_decimals (.inl hleft.2), toDecimal?_eq_none hright rfl]
  cases left.toDecimal? <;> rfl

theorem numericOrder_nan (hnumeric : left.isNumeric) (hclear : left.IsExact → Clear left right)
    (hright : right.binary? = some .nan) :
    numericOrder left right = placeOrder (place measure left) (place measure right) := by
  have hplace : place measure right = (2, 0) := by rw [place, hright]
  have hnan : (Binary.nan : Double).isNan = true := rfl
  rw [numericOrder, compareNumbers?_eq_none_of_nan hright, toDouble?_of_binary? hright, hplace]
  simp only [Option.getD_some, hnan]
  cases hbinary : left.binary? with
  | none =>
    rw [(hclear ⟨hnumeric, hbinary⟩).2 hright, place, hbinary]
    rfl
  | some x =>
    rw [toDouble?_of_binary? hbinary, place, hbinary]
    cases x with
    | nan => rfl
    | infinite negative => cases negative <;> rfl
    | finite => rfl

theorem numericOrder_infinite {negative : Bool} {d : Decimal} (hleft : left.toDecimal? = some d)
    (hnumeric : left.isNumeric) (hclear : left.IsExact → Clear left right)
    (hright : right.binary? = some (.infinite negative)) :
    numericOrder left right = placeOrder (place measure left) (place measure right) := by
  have hplaces : placeOrder (place measure left) (place measure right) =
      if negative then .gt else .lt := by
    rw [place_of_toDecimal? hleft, place, hright]
    cases negative <;> rfl
  rw [hplaces, numericOrder]
  cases hbinary : left.binary? with
  | none =>
    have hexact : left.IsExact := ⟨hnumeric, hbinary⟩
    have hfinite := (hclear hexact).1 negative hright
    have hnan : (left.toDouble?.getD .nan).isNan = false := by
      cases hx : left.toDouble?.getD .nan <;> first | rfl | (rw [hx] at hfinite; cases hfinite)
    rw [compareNumbers?_eq_none_of_infinite hexact hright, toDouble?_of_binary? hright]
    have hother : (Binary.infinite negative : Double).isNan = false := rfl
    simp only [Option.getD_some, hnan, hother, Binary.compare?_infinite hfinite]
  | some x =>
    have hfinite := isFinite_of_toDecimal? hbinary hleft
    rw [compareNumbers?_of_binary? hbinary hright, Binary.compare?_infinite hfinite]

theorem numericOrder_infinite_infinite {s t : Bool} (hleft : left.binary? = some (.infinite s))
    (hright : right.binary? = some (.infinite t)) :
    numericOrder left right = placeOrder (place measure left) (place measure right) := by
  rw [numericOrder, compareNumbers?_of_binary? hleft hright, Binary.compare?_infinite_infinite,
    place, place, hleft, hright]
  simp [placeOrder]

theorem numericOrder_eq_placeOrder (hleft : left.isNumeric) (hright : right.isNumeric)
    (hfinite : ∀ a b, left.toDecimal? = some a → right.toDecimal? = some b →
      left.compareNumbers? right = some (compare (measure left) (measure right)))
    (hleftClear : left.IsExact → Clear left right)
    (hrightClear : right.IsExact → Clear right left) :
    numericOrder left right = placeOrder (place measure left) (place measure right) := by
  have hswap : numericOrder right left = placeOrder (place measure right) (place measure left) →
      numericOrder left right = placeOrder (place measure left) (place measure right) := by
    intro h
    rw [numericOrder_swap right left, h]
    exact Std.OrientedCmp.eq_swap.symm
  rcases finite_or_binary? hleft with ⟨a, ha⟩ | ⟨s, hs⟩ | hnan
  · rcases finite_or_binary? hright with ⟨b, hb⟩ | ⟨t, ht⟩ | hnan
    · rw [numericOrder, hfinite a b ha hb, place_of_toDecimal? ha, place_of_toDecimal? hb]
      simp [placeOrder]
    · exact numericOrder_infinite ha hleft hleftClear ht
    · exact numericOrder_nan hleft hleftClear hnan
  · rcases finite_or_binary? hright with ⟨b, hb⟩ | ⟨t, ht⟩ | hnan
    · exact hswap (numericOrder_infinite hb hright hrightClear hs)
    · exact numericOrder_infinite_infinite hs ht
    · exact numericOrder_nan hleft hleftClear hnan
  · exact hswap (numericOrder_nan hright hrightClear hnan)

/-! ### Transitivity -/

/-- Keys whose numbers are ordered by one measure. -/
structure Coherent (keys : List Value) : Prop where
  /-- Beside an exact number, numbers of two binary formats are ordered by their shortest digits as
  they are by value. -/
  digits : ∀ exact ∈ keys, exact.IsExact → ∀ (x : Single) (y : Double),
    Value.float x ∈ keys → Value.double y ∈ keys →
      ∀ a b, Decimal.ofBinary? x = some a → Decimal.ofBinary? y = some b →
        (x.convert : Double).compare? y = some (a.compare b)
  clear : ∀ exact ∈ keys, exact.IsExact → ∀ other ∈ keys, Clear exact other

variable {keys : List Value}

theorem compareNumbers?_eq_digits (h : Coherent keys) {exact : Value} (hexact : exact.IsExact)
    (hmem : exact ∈ keys) (hleft : left ∈ keys) (hright : right ∈ keys) {a b : Decimal}
    (ha : left.toDecimal? = some a) (hb : right.toDecimal? = some b) :
    left.compareNumbers? right = some (a.compare b) := by
  cases hmixed : mixed left right with
  | false => exact compareNumbers?_eq_compare hmixed ha hb
  | true =>
    cases left with
    | float x =>
      cases right with
      | double y => exact h.digits exact hmem hexact x y hleft hright a b ha hb
      | _ => cases hmixed
    | double x =>
      cases right with
      | float y =>
        rw [compareNumbers?_swap (.float y) (.double x), Decimal.compare_swap b a]
        exact congrArg (Option.map Ordering.swap)
          (h.digits exact hmem hexact y x hright hleft b a hb ha)
      | _ => cases hmixed
    | _ => cases hmixed

/-- Beside an exact number the measure of a number is the one that its digits stand for, and else
its value. -/
theorem exists_measure (h : Coherent keys) :
    ∃ measure : Value → ℚ, ∀ left ∈ keys, ∀ right ∈ keys, left.isNumeric → right.isNumeric →
      numericOrder left right = placeOrder (place measure left) (place measure right) := by
  by_cases hexact : ∃ exact ∈ keys, exact.IsExact
  · obtain ⟨exact, hmem, hexact⟩ := hexact
    refine ⟨fun value => (value.toDecimal?.map Decimal.toRat).getD 0, ?_⟩
    intro left hleft right hright hleftNumeric hrightNumeric
    refine numericOrder_eq_placeOrder hleftNumeric hrightNumeric ?_
      (fun hleftExact => h.clear left hleft hleftExact right hright)
      (fun hrightExact => h.clear right hright hrightExact left hleft)
    intro a b ha hb
    rw [compareNumbers?_eq_digits h hexact hmem hleft hright ha hb,
      Decimal.compare_eq_toRat, ha, hb]
    rfl
  · refine ⟨fun value => ((value.binary?.bind Binary.rank?).getD 0 : ℤ), ?_⟩
    intro left hleft right hright hleftNumeric hrightNumeric
    refine numericOrder_eq_placeOrder hleftNumeric hrightNumeric ?_
      (fun hleftExact => absurd ⟨left, hleft, hleftExact⟩ hexact)
      (fun hrightExact => absurd ⟨right, hright, hrightExact⟩ hexact)
    intro a b ha hb
    cases hx : left.binary? with
    | none => exact absurd ⟨left, hleft, hleftNumeric, hx⟩ hexact
    | some x =>
      cases hy : right.binary? with
      | none => exact absurd ⟨right, hright, hrightNumeric, hy⟩ hexact
      | some y =>
        have hxFinite := isFinite_of_toDecimal? hx ha
        have hyFinite := isFinite_of_toDecimal? hy hb
        rw [compareNumbers?_of_binary? hx hy]
        cases x with
        | nan | infinite => cases hxFinite
        | finite s m hm =>
          cases y with
          | nan | infinite => cases hyFinite
          | finite t n hn =>
            refine congrArg some ?_
            rw [← cmp_eq_compare, ← cmp_eq_compare]
            exact (Int.cast_strictMono.cmp_map_eq _ _).symm

theorem numericOrder_trans (h : Coherent keys) {a b c : Value} (ha : a ∈ keys) (hb : b ∈ keys)
    (hc : c ∈ keys) (haNumeric : a.isNumeric) (hbNumeric : b.isNumeric) (hcNumeric : c.isNumeric)
    (hab : (numericOrder a b).isLE) (hbc : (numericOrder b c).isLE) :
    (numericOrder a c).isLE := by
  obtain ⟨measure, hmeasure⟩ := exists_measure h
  rw [hmeasure a ha b hb haNumeric hbNumeric] at hab
  rw [hmeasure b hb c hc hbNumeric hcNumeric] at hbc
  rw [hmeasure a ha c hc haNumeric hcNumeric]
  exact Std.TransCmp.isLE_trans hab hbc

/-- The order of values of one kind. -/
def kindOrder (left right : Value) : Ordering :=
  if kindRank left = 0 then numericOrder left right else (left.compare? right).getD .eq

theorem totalOrder_eq_then (left right : Value) :
    totalOrder left right =
      (compare (kindRank left) (kindRank right)).then (kindOrder left right) := by
  rw [totalOrder]
  cases compare (kindRank left) (kindRank right) <;> rfl

theorem kindRank_eq_zero_iff {value : Value} : kindRank value = 0 ↔ value.isNumeric := by
  cases value <;> simp [kindRank, isNumeric, isIntegral]

theorem exists_text?_of_kindRank {value : Value} (h : kindRank value = 1) :
    ∃ text, TextMethod.text? value = some text := by
  cases value <;> first | exact ⟨_, rfl⟩ | simp [kindRank, isNumeric, isIntegral] at h

theorem exists_boolean_of_kindRank {value : Value} (h : kindRank value = 2) :
    ∃ b, value = .boolean b := by
  cases value <;> first | exact ⟨_, rfl⟩ | simp [kindRank, isNumeric, isIntegral] at h

theorem compare_toString (c d : Char) : compare c.toString d.toString = compare c d := by
  have hlt : c.toString < d.toString ↔ c < d := by
    rw [String.lt_iff]
    simp [List.cons_lt_cons_iff]
  have heq : c.toString = d.toString ↔ c = d := by simp
  change compareOfLessAndEq _ _ = compareOfLessAndEq _ _
  simp only [compareOfLessAndEq, hlt, heq]

theorem compare?_of_text? {s t : String} (hleft : TextMethod.text? left = some s)
    (hright : TextMethod.text? right = some t) : left.compare? right = some (compare s t) := by
  cases left with
  | char c =>
    obtain rfl := Option.some.inj hleft
    cases right with
    | char d =>
      obtain rfl := Option.some.inj hright
      exact congrArg some (compare_toString c d).symm
    | string t =>
      obtain rfl := Option.some.inj hright
      rfl
    | _ => cases hright
  | string s =>
    obtain rfl := Option.some.inj hleft
    cases right with
    | char d =>
      obtain rfl := Option.some.inj hright
      rfl
    | string t =>
      obtain rfl := Option.some.inj hright
      rfl
    | _ => cases hright
  | _ => cases hleft

theorem compare?_eq_none (h : 2 < kindRank left) : left.compare? right = none := by
  cases left with
  | null | array | list | set | map | object | type => rfl
  | _ => simp [kindRank, isNumeric, isIntegral] at h

theorem kindOrder_trans (h : Coherent keys) {a b c : Value} (ha : a ∈ keys) (hb : b ∈ keys)
    (hc : c ∈ keys) (hkindb : kindRank b = kindRank a) (hkindc : kindRank c = kindRank a)
    (hab : (kindOrder a b).isLE) (hbc : (kindOrder b c).isLE) : (kindOrder a c).isLE := by
  rw [kindOrder] at hab hbc ⊢
  rw [hkindb] at hbc
  by_cases hzero : kindRank a = 0
  · rw [if_pos hzero] at hab hbc ⊢
    exact numericOrder_trans h ha hb hc (kindRank_eq_zero_iff.mp hzero)
      (kindRank_eq_zero_iff.mp (hkindb.trans hzero)) (kindRank_eq_zero_iff.mp (hkindc.trans hzero))
      hab hbc
  rw [if_neg hzero] at hab hbc ⊢
  by_cases hone : kindRank a = 1
  · obtain ⟨s, hs⟩ := exists_text?_of_kindRank hone
    obtain ⟨t, ht⟩ := exists_text?_of_kindRank (hkindb.trans hone)
    obtain ⟨u, hu⟩ := exists_text?_of_kindRank (hkindc.trans hone)
    rw [compare?_of_text? hs ht] at hab
    rw [compare?_of_text? ht hu] at hbc
    rw [compare?_of_text? hs hu]
    exact @Std.TransCmp.isLE_trans _ compare _ s t u hab hbc
  by_cases htwo : kindRank a = 2
  · obtain ⟨p, rfl⟩ := exists_boolean_of_kindRank htwo
    obtain ⟨q, rfl⟩ := exists_boolean_of_kindRank (hkindb.trans htwo)
    obtain ⟨r, rfl⟩ := exists_boolean_of_kindRank (hkindc.trans htwo)
    exact @Std.TransCmp.isLE_trans _ compare _ p q r hab hbc
  · rw [compare?_eq_none (by omega)]
    rfl

theorem totalOrder_trans (h : Coherent keys) {a b c : Value} (ha : a ∈ keys) (hb : b ∈ keys)
    (hc : c ∈ keys) (hab : (totalOrder a b).isLE) (hbc : (totalOrder b c).isLE) :
    (totalOrder a c).isLE := by
  rw [totalOrder_eq_then] at hab hbc ⊢
  simp only [Ordering.isLE_then_iff_or, Nat.compare_eq_lt, Nat.compare_eq_eq] at hab hbc ⊢
  rcases hab with hab | ⟨hkindab, hab⟩
  · rcases hbc with hbc | ⟨hkindbc, _⟩
    · exact .inl (hab.trans hbc)
    · exact .inl (hkindbc ▸ hab)
  · rcases hbc with hbc | ⟨hkindbc, hbc⟩
    · exact .inl (hkindab ▸ hbc)
    · exact .inr ⟨hkindab.trans hkindbc,
        kindOrder_trans h ha hb hc hkindab.symm (hkindab.trans hkindbc).symm hab hbc⟩

theorem order_trans (key : SortKey) (h : Coherent keys) {a b c : Value} (ha : a ∈ keys)
    (hb : b ∈ keys) (hc : c ∈ keys) (hab : (key.order a b).isLE) (hbc : (key.order b c).isLE) :
    (key.order a c).isLE := by
  rw [order] at hab hbc ⊢
  revert hab hbc
  cases a.isNull <;> cases b.isNull <;> cases c.isNull <;> simp only <;> intro hab hbc
  · split
    · rename_i hdescending
      rw [if_pos hdescending, ← totalOrder_swap] at hab hbc
      rw [← totalOrder_swap]
      exact totalOrder_trans h hc hb ha hbc hab
    · rename_i hdescending
      rw [if_neg hdescending] at hab hbc
      exact totalOrder_trans h ha hb hc hab hbc
  all_goals
    -- A null stands on one side of all other keys.
    by_cases hnulls : key.nulls = .first <;> simp_all

/-- The order of the values of a key is a total preorder on coherent values. -/
theorem order_preorder (key : SortKey) (a b c : Value) :
    key.order b a = (key.order a b).swap ∧ key.order a a = .eq ∧
      (Coherent [a, b, c] → (key.order a b).isLE → (key.order b c).isLE →
        (key.order a c).isLE) :=
  ⟨key.order_swap a b, key.order_self a,
    fun h => key.order_trans h (by simp) (by simp) (by simp)⟩

/-- A key in ascending order. -/
def ascending : SortKey := ⟨.path none ["this"], false, defaultNulls false⟩

theorem coherent_of_digits {x : Single} {y : Double} {d : Decimal} (hfinite : d.toDouble.isFinite)
    (hdigits : (x.convert : Double).compare? y = (do
      let a ← Decimal.ofBinary? x
      let b ← Decimal.ofBinary? y
      return a.compare b)) :
    Coherent [.float x, .decimal d, .double y] where
  digits := by
    intro exact _ _ x' y' hx hy a b ha hb
    obtain rfl : x' = x := by simpa using hx
    obtain rfl : y' = y := by simpa using hy
    rw [hdigits, ha, hb]
    rfl
  clear := by
    intro exact hmem hexact other _
    simp only [List.mem_cons, List.not_mem_nil, or_false] at hmem
    rcases hmem with rfl | rfl | rfl
    · cases hexact.2
    · refine ⟨fun _ _ => hfinite, fun _ => ?_⟩
      change d.toDouble.isNan = false
      cases hdouble : d.toDouble <;> first | rfl | (rw [hdouble] at hfinite; cases hfinite)
    · cases hexact.2

/-- Three tenths between a quarter and a half, these in two binary formats. -/
theorem order_preorder_quarterThreeTenthsHalf :
    (ascending.order (.float (.ofRatio false 1 4)) (.double (.ofRatio false 1 2))).isLE :=
  (ascending.order_preorder _ (.decimal ⟨3, 1⟩) _).2.2
    (coherent_of_digits (by decide +kernel) (by decide +kernel)) (by decide +kernel)
    (by decide +kernel)

/-- A decimal beyond the doubles ties with infinity, also if it is greater than another one that
does; and a decimal ties with a single and with a double of its digits, of which one is greater. -/
theorem order_not_transitive :
    (ascending.order (.decimal ⟨1, -401⟩) (.double (.infinite false)) = .eq ∧
      ascending.order (.double (.infinite false)) (.decimal ⟨1, -400⟩) = .eq ∧
      ascending.order (.decimal ⟨1, -401⟩) (.decimal ⟨1, -400⟩) = .gt) ∧
    ascending.order (.float (.ofRatio false 1 10)) (.decimal ⟨1, 1⟩) = .eq ∧
      ascending.order (.decimal ⟨1, 1⟩) (.double (.ofRatio false 1 10)) = .eq ∧
      ascending.order (.float (.ofRatio false 1 10)) (.double (.ofRatio false 1 10)) = .gt := by
  decide +kernel

end SortKey

end ObjectQuery
