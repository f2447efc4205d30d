import ObjectQuery.Proofs.Number.DecimalText
import ObjectQuery.Proofs.Value.Comparison
import ObjectQuery.Value.Text

/-!
Texts of numbers. Main statement: what is read from the text of a number is a decimal of its value,
so that numbers of one text are equal, unless they are not-a-number, or a single and a double that
lies between it and its digits.
-/

namespace ObjectQuery

namespace Decimal

theorem ofString?_toString (n : Int) : ofString? (toString n) = some (ofInt n) := by
  have hdigits := digits_toDigits n.natAbs
  rw [ofString?, toList_toString_int, ofChars?_plain (isPlain_of_mem _ hdigits.digit),
    ofMantissa?_digits _ hdigits (by decide), Nat.ofDigitChars_toDigits (by decide) (by decide),
    signedBy_natAbs]
  rfl

theorem toList_append_zeros {n k : ℕ} (h : 0 < n ∨ k = 0) :
    (toString n ++ String.ofList (List.replicate k '0')).toList = Nat.toDigits 10 (n * 10 ^ k) := by
  rw [String.toList_append, String.toList_ofList, toList_toString_nat]
  rcases h with hpos | rfl
  · rw [toDigits_mul_ten_pow hpos]
  · simp

theorem ofString?_toText_binary {f : BinaryFormat} (hf : f.Searchable)
    (hfraction : 2 * f.fractionBits ≤ 100000) (x : Binary f) :
    ofString? x.toText = ofBinary? x := by
  cases x with
  | nan => exact (by decide +kernel : ofString? "NaN" = none)
  | infinite negative =>
    cases negative
    · exact (by decide +kernel : ofString? "inf" = none)
    · exact (by decide +kernel : ofString? "-inf" = none)
  | finite negative n fits =>
    have hpositive : 0 < (f.shortestDigits .larger n).digits ∨
        (f.shortestDigits .larger n).exponent = 0 := by
      rcases Nat.eq_zero_or_pos n with rfl | hpos
      · exact .inr rfl
      · exact .inl (BinaryFormat.shortestDigits_digits_pos hf fits hpos .larger)
    have hplaces : -(f.shortestDigits .larger n).exponent < f.fractionBits + 6 := by
      rcases Nat.eq_zero_or_pos n with rfl | hpos
      · exact (by omega : (0 : Int) < f.fractionBits + 6)
      · exact BinaryFormat.neg_exponent_lt hfraction fits hpos
    have hsign : (if negative then "-" else "").toList = signText negative := by
      cases negative <;> rfl
    have hsigned : ∀ (m : ℕ) (scale : Int),
        (if negative then (⟨m, scale⟩ : Decimal).neg else ⟨m, scale⟩) =
          ⟨signedBy negative m, scale⟩ := by
      intro m scale
      cases negative <;> rfl
    rw [ofString?, Binary.toText, ofBinary?]
    set shortest := f.shortestDigits .larger n
    simp only [String.toList_append, hsign]
    by_cases hexponent : 0 ≤ shortest.exponent
    · have htext := toList_append_zeros (hpositive.imp_right fun h => Int.natAbs_eq_zero.mpr h)
      have hdigits := digits_toDigits (shortest.digits * 10 ^ shortest.exponent.natAbs)
      rw [if_pos hexponent, if_pos hexponent, hsigned, htext,
        ofChars?_plain (isPlain_of_mem _ hdigits.digit), ofMantissa?_digits _ hdigits (by decide),
        Nat.ofDigitChars_toDigits (by decide) (by decide)]
      rfl
    · have hdigits := digits_toDigits shortest.digits
      have hfits : scaleFits shortest.exponent.natAbs := by
        have hmax : Int64.maxValue.toInt = 9223372036854775807 := rfl
        have hmin : Int64.minValue.toInt = -9223372036854775808 := rfl
        rw [scaleFits, hmax, hmin, Bool.and_eq_true, decide_eq_true_eq, decide_eq_true_eq]
        omega
      rw [if_neg hexponent, if_neg hexponent, hsigned,
        ofChars?_insertPoint _ (toList_toString_nat _ ▸ hdigits) (by omega) hfits,
        toList_toString_nat, Nat.ofDigitChars_toDigits (by decide) (by decide),
        Int.ofNat_natAbs_of_nonpos (by omega)]

end Decimal

namespace Value

variable {a b value : Value}

theorem ofString?_toText (h : value.isNumeric) (hfits : value.ScaleFits) :
    (Decimal.ofString? value.toText).map Decimal.toRat = value.toDecimal?.map Decimal.toRat := by
  have hinteger : ∀ n : Int, (Decimal.ofString? (toString n)).map Decimal.toRat =
      some (Decimal.ofInt n).toRat := by
    intro n
    rw [Decimal.ofString?_toString, Option.map_some]
  cases value with
  | byte n | short n | int n | long n | bigInteger n => exact hinteger _
  | float x =>
    exact congrArg _ (Decimal.ofString?_toText_binary BinaryFormat.single_searchable (by decide) x)
  | double x =>
    exact congrArg _ (Decimal.ofString?_toText_binary BinaryFormat.double_searchable (by decide) x)
  | decimal d =>
    rw [toText, Decimal.ofString?_toText hfits, Option.map_some, Decimal.toRat_settled]
    rfl
  | _ => cases h

theorem toText_of_binary? {x : Double} (h : value.binary? = some x) (hx : x.isFinite = false) :
    value.toText = x.toText := by
  cases value with
  | float y =>
    obtain rfl := Option.some.inj h
    cases y with
    | finite negative n fits =>
      rw [Binary.isFinite_convert BinaryFormat.single_widens_double rfl] at hx
      cases hx
    | _ => rfl
  | double y =>
    obtain rfl := Option.some.inj h
    rfl
  | _ => cases h

theorem compareNumbers?_of_infinite {negative : Bool} (ha : a.binary? = some (.infinite negative))
    (hb : b.isNumeric) (hdecimal : b.toDecimal? = none) (htext : a.toText = b.toText) :
    a.compareNumbers? b = some .eq := by
  have hatext := toText_of_binary? ha rfl
  rcases finite_or_binary? hb with ⟨d, hd⟩ | ⟨other, hinfinite⟩ | hnan
  · rw [hdecimal] at hd
    cases hd
  · have hsame : negative = other := by
      have htexts := hatext.symm.trans (htext.trans (toText_of_binary? hinfinite rfl))
      cases negative <;> cases other <;> first | rfl | exact absurd htexts (by decide)
    obtain ⟨rank, hrank⟩ : ∃ rank, (.infinite negative : Double).rank? = some rank := ⟨_, rfl⟩
    rw [compareNumbers?_of_binary? ha hinfinite, ← hsame, Binary.compare?_of_rank? hrank hrank]
    simp
  · have htexts := hatext.symm.trans (htext.trans (toText_of_binary? hnan rfl))
    cases negative <;> exact absurd htexts (by decide)

/-- Numbers of one text are equal, unless they are not-a-number, or a single and a double that parts
it from its digits. -/
theorem looseEq_of_numbers (ha : a.isNumeric) (hb : b.isNumeric) (hafits : a.ScaleFits)
    (hbfits : b.ScaleFits) (hnan : a.binary? ≠ some .nan) (hparted : ¬ Parted a b)
    (htext : a.toText = b.toText) : a.looseEq b := by
  have hvalue : a.toDecimal?.map Decimal.toRat = b.toDecimal?.map Decimal.toRat := by
    rw [← ofString?_toText ha hafits, htext, ofString?_toText hb hbfits]
  suffices hequal : a.compareNumbers? b = some .eq by
    rw [looseEq_eq_compareNumbers? ha hb, hequal]
    rfl
  rcases finite_or_binary? ha with ⟨x, hx⟩ | ⟨negative, hinfinite⟩ | h
  · rw [hx, Option.map_some, eq_comm, Option.map_eq_some_iff] at hvalue
    obtain ⟨y, hy, hrat⟩ := hvalue
    rw [← (compareNumbers?_reread_iff hx hy).mpr hparted, compareNumbers?_reread hx hy,
      Decimal.compare_eq_toRat, hrat]
    simp
  · rw [toDecimal?_eq_none hinfinite rfl, Option.map_none, eq_comm, Option.map_eq_none_iff]
      at hvalue
    exact compareNumbers?_of_infinite hinfinite hb hvalue htext
  · exact absurd h hnan

end Value

end ObjectQuery
