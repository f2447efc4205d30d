import ObjectQuery.Proofs.Number.Decimal
import ObjectQuery.Proofs.Number.Digits

/-!
Decimals that are written and read again. Main statement: the text of a decimal is read as a decimal
of the same value and with the same text.
-/

namespace ObjectQuery

namespace Decimal

variable {cs whole fraction rest : List Char} {exponent : Int} {d : Decimal}

/-- A character that may stand in front of an exponent. -/
def IsPlain (c : Char) : Prop := c ≠ 'e' ∧ c ≠ 'E'

instance (c : Char) : Decidable (IsPlain c) := inferInstanceAs (Decidable (_ ∧ _))

/-- The decimal whose digits stand in `mantissa`, scaled by an exponent. -/
def ofMantissa? (mantissa : List Char) (exponent : Int) : Option Decimal := do
  let whole := mantissa.takeWhile (· != '.')
  let fraction := (mantissa.dropWhile (· != '.')).drop 1
  let unscaled ← Numeral.integer? (whole ++ fraction)
  let scale := ((fraction.filter (· != '_')).length : Int) - exponent
  if scaleFits scale then return ⟨unscaled, scale⟩ else none

theorem ofChars?_plain (h : ∀ c ∈ cs, IsPlain c) : ofChars? cs = ofMantissa? cs 0 := by
  have hplain : ∀ c ∈ cs, (!(c == 'e' || c == 'E')) = true :=
    fun c hc => by simp [(h c hc).1, (h c hc).2]
  rw [ofChars?]
  simp only [List.takeWhile_eq_self_iff.mpr hplain, List.dropWhile_eq_nil_iff.mpr hplain]
  rfl

theorem ofChars?_marked (h : ∀ c ∈ cs, IsPlain c) {mark : Char} (hmark : ¬IsPlain mark)
    (hexponent : exponent? rest = some exponent) :
    ofChars? (cs ++ mark :: rest) = ofMantissa? cs exponent := by
  have hplain : ∀ c ∈ cs, (!(c == 'e' || c == 'E')) = true :=
    fun c hc => by simp [(h c hc).1, (h c hc).2]
  have hstop : (!(mark == 'e' || mark == 'E')) = false := by
    simp [IsPlain] at hmark
    by_cases he : mark = 'e' <;> simp_all
  rw [ofChars?]
  simp only [List.takeWhile_append_of_pos hplain, List.dropWhile_append_of_pos hplain,
    List.takeWhile_cons, List.dropWhile_cons, hstop, Bool.false_eq_true, if_false, List.append_nil]
  rw [hexponent]
  rfl

theorem integer?_of_digits (negative : Bool) (h : Digits whole) :
    Numeral.integer? (signText negative ++ whole) =
      some (signedBy negative (Nat.ofDigitChars 10 whole 0)) := by
  have hread := Numeral.natural?_of_digits h
  cases negative with
  | true =>
    simp [Numeral.integer?, signText, Numeral.signed, hread, signedBy]
  | false =>
    have hsigned : Numeral.signed whole = (false, whole) := by
      obtain ⟨c, others, rfl⟩ := List.exists_cons_of_ne_nil h.nonempty
      have hc := h.digit c (by simp)
      unfold Numeral.signed
      split
      · rename_i heq
        rw [(List.cons.inj heq).1] at hc
        cases hc
      · rename_i heq
        rw [(List.cons.inj heq).1] at hc
        cases hc
      · rfl
    simp [Numeral.integer?, signText, hsigned, hread, signedBy]

theorem isPlain_of_isDigit {c : Char} (h : c.isDigit) : IsPlain c :=
  ⟨ne_of_isDigit h rfl, ne_of_isDigit h rfl⟩

theorem ne_point_of_mem (negative : Bool) (h : ∀ c ∈ whole, c.isDigit) :
    ∀ c ∈ signText negative ++ whole, (c != '.') = true := by
  have hne : ∀ c ∈ signText negative ++ whole, c ≠ '.' :=
    forall_mem_signed (by decide) (fun _ hc => ne_of_isDigit hc rfl) negative h
  exact fun c hc => bne_iff_ne.mpr (hne c hc)

theorem ofMantissa?_point (negative : Bool) (hwhole : Digits whole)
    (hfraction : ∀ c ∈ fraction, c.isDigit) (hfits : scaleFits (fraction.length - exponent)) :
    ofMantissa? (signText negative ++ whole ++ '.' :: fraction) exponent =
      some ⟨signedBy negative (Nat.ofDigitChars 10 (whole ++ fraction) 0),
        fraction.length - exponent⟩ := by
  have hpoint := ne_point_of_mem negative hwhole.digit
  have hfilter : fraction.filter (· != '_') = fraction :=
    List.filter_eq_self.mpr fun c hc => bne_iff_ne.mpr (ne_of_isDigit (hfraction c hc) rfl)
  have hdigits : Digits (whole ++ fraction) :=
    ⟨by simp [hwhole.nonempty],
      fun c hc => (List.mem_append.mp hc).elim (hwhole.digit c) (hfraction c)⟩
  rw [ofMantissa?]
  simp only [List.takeWhile_append_of_pos hpoint, List.dropWhile_append_of_pos hpoint,
    List.takeWhile_cons, List.dropWhile_cons, bne_self_eq_false, Bool.false_eq_true, if_false,
    List.append_nil, List.drop_succ_cons, List.drop_zero, hfilter]
  rw [List.append_assoc, integer?_of_digits negative hdigits]
  simp [hfits]

theorem ofMantissa?_digits (negative : Bool) (hwhole : Digits whole)
    (hfits : scaleFits (-exponent)) :
    ofMantissa? (signText negative ++ whole) exponent =
      some ⟨signedBy negative (Nat.ofDigitChars 10 whole 0), -exponent⟩ := by
  have hpoint := ne_point_of_mem negative hwhole.digit
  rw [ofMantissa?]
  simp only [List.takeWhile_eq_self_iff.mpr hpoint, List.dropWhile_eq_nil_iff.mpr hpoint,
    List.drop_nil, List.append_nil, List.filter_nil, List.length_nil]
  rw [integer?_of_digits negative hwhole]
  simp [hfits]

theorem contains_eq_false (negative : Bool) (h : ∀ c ∈ whole, c.isDigit) :
    (signText negative ++ whole).contains '_' = false := by
  have hne : ∀ c ∈ signText negative ++ whole, c ≠ '_' :=
    forall_mem_signed (by decide) (fun _ hc => ne_of_isDigit hc rfl) negative h
  rw [← Bool.not_eq_true, List.contains_iff_mem]
  exact fun hmem => hne _ hmem rfl

theorem exponent?_toString (n : Int) : exponent? (toString n).toList = some n := by
  have hdigits := digits_toDigits n.natAbs
  rw [exponent?, toList_toString_int, contains_eq_false _ hdigits.digit, if_neg Bool.false_ne_true,
    integer?_of_digits _ hdigits, Nat.ofDigitChars_toDigits (by decide) (by decide),
    signedBy_natAbs]

theorem exponent?_plus {n : Int} (hn : 0 ≤ n) :
    exponent? ('+' :: (toString n).toList) = some n := by
  have hdigits := digits_toDigits n.natAbs
  have hread := Numeral.natural?_of_digits hdigits
  rw [Nat.ofDigitChars_toDigits (by decide) (by decide)] at hread
  have hnegative : decide (n < 0) = false := by simpa using hn
  have hplain : ('+' :: Nat.toDigits 10 n.natAbs).contains '_' = false := by
    rw [List.contains_cons]
    exact contains_eq_false false hdigits.digit
  have habs : (n.natAbs : Int) = n := by omega
  rw [toList_toString_int, hnegative]
  change exponent? ('+' :: Nat.toDigits 10 n.natAbs) = some n
  rw [exponent?, hplain, if_neg Bool.false_ne_true]
  simp only [Numeral.integer?, Numeral.signed, hread, Option.bind_eq_bind, Option.bind_some,
    Bool.false_eq_true, if_false, habs]
  rfl

theorem isPlain_of_mem (negative : Bool) (h : ∀ c ∈ whole, c.isDigit) :
    ∀ c ∈ signText negative ++ whole, IsPlain c :=
  forall_mem_signed (by decide) (fun _ => isPlain_of_isDigit) negative h

theorem isPlain_of_mem_point (negative : Bool) (hwhole : ∀ c ∈ whole, c.isDigit)
    (hfraction : ∀ c ∈ fraction, c.isDigit) :
    ∀ c ∈ signText negative ++ whole ++ '.' :: fraction, IsPlain c := by
  intro c hc
  rcases List.mem_append.mp hc with hc | hc
  · exact isPlain_of_mem negative hwhole c hc
  · rcases List.mem_cons.mp hc with rfl | hc
    · decide
    · exact isPlain_of_isDigit (hfraction c hc)

/-! ### The forms of a decimal -/

variable {text : String}

theorem ofChars?_scientific (negative : Bool) (h : Digits text.toList) (hexponent : exponent < 0)
    (hfits : scaleFits (text.toList.length - 1 - exponent)) :
    ofChars? (signText negative ++ (scientific text exponent).toList) =
      some ⟨signedBy negative (Nat.ofDigitChars 10 text.toList 0),
        text.toList.length - 1 - exponent⟩ := by
  have hmark : ¬IsPlain 'E' := by decide
  have hread := exponent?_toString exponent
  simp only [scientific, hexponent, if_true, String.toList_append]
  obtain ⟨c, others, hcs⟩ := List.exists_cons_of_ne_nil h.nonempty
  rw [hcs] at h hfits ⊢
  have hc : Digits [c] := ⟨by simp, by simpa using h.digit c (by simp)⟩
  cases others with
  | nil =>
    have hfits : scaleFits (-exponent) := by simpa using hfits
    have hvalue := ofMantissa?_digits negative hc hfits
    have hparts := ofChars?_marked (isPlain_of_mem negative hc.digit) hmark hread
    simpa using hparts.trans hvalue
  | cons next others =>
    have hfraction : ∀ c ∈ next :: others, c.isDigit :=
      fun d hd => h.digit d (List.mem_cons_of_mem _ hd)
    have hfits : scaleFits ((next :: others).length - exponent) := by simpa using hfits
    have hvalue := ofMantissa?_point negative hc hfraction hfits
    have hparts := ofChars?_marked (isPlain_of_mem_point negative hc.digit hfraction) hmark hread
    simpa using hparts.trans hvalue

theorem ofChars?_insertPoint (negative : Bool) (h : Digits text.toList) {places : ℕ}
    (hpos : 0 < places) (hfits : scaleFits places) :
    ofChars? (signText negative ++ (insertPoint text places).toList) =
      some ⟨signedBy negative (Nat.ofDigitChars 10 text.toList 0), places⟩ := by
  have hpadded := h.append_left (fun _ => isDigit_of_mem_replicate (n := places + 1 - text.length))
  have hlong : places < (List.replicate (places + 1 - text.length) '0' ++ text.toList).length := by
    rw [List.length_append, List.length_replicate, ← String.length_toList]
    omega
  rw [insertPoint, if_neg (by omega), String.toList_ofList]
  generalize hpad : List.replicate (places + 1 - text.length) '0' ++ text.toList = padded at *
  have hvalue : Nat.ofDigitChars 10 padded 0 = Nat.ofDigitChars 10 text.toList 0 := by
    rw [← hpad, ofDigitChars_replicate_append]
  have hwhole : Digits (padded.take (padded.length - places)) := by
    refine ⟨List.ne_nil_of_length_pos ?_, fun c hc => hpadded.digit c (List.mem_of_mem_take hc)⟩
    rw [List.length_take]
    omega
  have hfraction : ∀ c ∈ padded.drop (padded.length - places), c.isDigit :=
    fun c hc => hpadded.digit c (List.mem_of_mem_drop hc)
  have hlength : (padded.drop (padded.length - places)).length = places := by
    rw [List.length_drop]
    omega
  have hread := ofMantissa?_point negative hwhole hfraction (by rwa [hlength, Int.sub_zero])
  rw [List.take_append_drop, hvalue, hlength, Int.sub_zero] at hread
  rw [← List.append_assoc, ofChars?_plain (isPlain_of_mem_point negative hwhole.digit hfraction),
    hread]

theorem toList_toText (hzero : d.isZero = false) : d.toText.toList =
    signText (d.unscaled < 0) ++
      (if 0 < d.scale then
        if leadingZerosWritten < d.scale - (Nat.toDigits 10 d.unscaled.natAbs).length then
          scientific (toString d.unscaled.natAbs)
            ((Nat.toDigits 10 d.unscaled.natAbs).length - d.scale - 1)
        else insertPoint (toString d.unscaled.natAbs) d.scale.toNat
      else if trailingZerosWritten < -d.scale then
        toString d.unscaled.natAbs ++ "e+" ++ toString (-d.scale)
      else toString d.unscaled.natAbs ++ String.ofList
        (List.replicate d.scale.natAbs '0')).toList := by
  have hlength : (toString d.unscaled.natAbs).length =
    (Nat.toDigits 10 d.unscaled.natAbs).length := by
    rw [← String.length_toList, toList_toString_nat]
  have hsign : (if d.unscaled < 0 then "-" else "").toList = signText (d.unscaled < 0) := by
    by_cases hneg : d.unscaled < 0 <;> simp [hneg, signText]
  rw [toText, hzero, if_neg Bool.false_ne_true, String.toList_append, hsign, hlength]

/-! ### The text of a decimal -/

/-- A decimal as it is read from its text. -/
def settled (d : Decimal) : Decimal :=
  if d.isZero then ⟨0, 0⟩
  else if d.scale ≤ 0 ∧ -d.scale ≤ trailingZerosWritten then
    ⟨d.unscaled * 10 ^ d.scale.natAbs, 0⟩
  else d

theorem settled_eq_self (hzero : d.isZero = false)
    (h : 0 < d.scale ∨ trailingZerosWritten < -d.scale) : d.settled = d := by
  rw [settled, hzero, if_neg Bool.false_ne_true, if_neg (by omega)]

theorem settled_of_zeros (hzero : d.isZero = false) (hscale : d.scale ≤ 0)
    (h : -d.scale ≤ trailingZerosWritten) :
    d.settled = ⟨d.unscaled * 10 ^ d.scale.natAbs, 0⟩ := by
  rw [settled, hzero, if_neg Bool.false_ne_true, if_pos ⟨hscale, h⟩]

theorem toList_zeros (hzero : d.isZero = false) :
    (toString d.unscaled.natAbs ++ String.ofList (List.replicate d.scale.natAbs '0')).toList =
      Nat.toDigits 10 (d.unscaled.natAbs * 10 ^ d.scale.natAbs) := by
  have hpos : 0 < d.unscaled.natAbs := by
    have : d.unscaled ≠ 0 := by simpa [isZero] using hzero
    omega
  rw [String.toList_append, String.toList_ofList, toList_toString_nat, toDigits_mul_ten_pow hpos]

theorem signedBy_mul_pow (n : Int) (k : ℕ) :
    signedBy (n < 0) (n.natAbs * 10 ^ k) = n * 10 ^ k := by
  have hsigned : signedBy (n < 0) (n.natAbs * 10 ^ k) = signedBy (n < 0) n.natAbs * 10 ^ k := by
    rw [signedBy, signedBy]
    split <;> push_cast <;> ring
  rw [hsigned, signedBy_natAbs]

/-- The text of a decimal is read as the decimal, its zeros in front of the point written out. -/
theorem ofString?_toText (hfits : scaleFits d.scale) : ofString? d.toText = some d.settled := by
  rw [ofString?]
  by_cases hzero : d.isZero
  · rw [toText, if_pos hzero, settled, if_pos hzero]
    rfl
  rw [Bool.not_eq_true] at hzero
  have hdigits := digits_toDigits d.unscaled.natAbs
  have htext := toList_toString_nat d.unscaled.natAbs
  have hvalue : signedBy (d.unscaled < 0)
      (Nat.ofDigitChars 10 (Nat.toDigits 10 d.unscaled.natAbs) 0) = d.unscaled := by
    rw [Nat.ofDigitChars_toDigits (by decide) (by decide), signedBy_natAbs]
  rw [toList_toText hzero]
  by_cases hscale : 0 < d.scale
  · rw [settled_eq_self hzero (.inl hscale), if_pos hscale]
    by_cases hzeros : leadingZerosWritten < d.scale - (Nat.toDigits 10 d.unscaled.natAbs).length
    · have hexponent : ((Nat.toDigits 10 d.unscaled.natAbs).length : Int) - d.scale - 1 < 0 := by
        have : (0 : Int) < leadingZerosWritten := by decide
        omega
      have hscaled : ((Nat.toDigits 10 d.unscaled.natAbs).length : Int) - 1 -
          ((Nat.toDigits 10 d.unscaled.natAbs).length - d.scale - 1) = d.scale := by omega
      rw [if_pos hzeros, ofChars?_scientific _ (htext ▸ hdigits) hexponent
        (by rwa [htext, hscaled]),
        htext, hscaled, hvalue]
    · have hnat : (d.scale.toNat : Int) = d.scale := by omega
      rw [if_neg hzeros, ofChars?_insertPoint _ (htext ▸ hdigits) (by omega) (by rwa [hnat]), htext,
        hnat, hvalue]
  · rw [if_neg hscale]
    by_cases hzeros : trailingZerosWritten < -d.scale
    · have hnumber := ofMantissa?_digits (decide (d.unscaled < 0)) hdigits
        (by rwa [Int.neg_neg] : scaleFits (- -d.scale))
      have hparts := ofChars?_marked (isPlain_of_mem (decide (d.unscaled < 0)) hdigits.digit)
        (by decide : ¬IsPlain 'e') (exponent?_plus (by omega : 0 ≤ -d.scale))
      rw [hvalue, Int.neg_neg] at hnumber
      rw [settled_eq_self hzero (.inr hzeros), if_pos hzeros]
      simpa using hparts.trans hnumber
    · have hnumber := ofMantissa?_digits (decide (d.unscaled < 0))
        (digits_toDigits (d.unscaled.natAbs * 10 ^ d.scale.natAbs)) (by decide : scaleFits (-0))
      rw [Nat.ofDigitChars_toDigits (by decide) (by decide), signedBy_mul_pow] at hnumber
      rw [settled_of_zeros hzero (by omega) (by omega), if_neg hzeros, toList_zeros hzero,
        ofChars?_plain (isPlain_of_mem _ (digits_toDigits _).digit)]
      exact hnumber

theorem toRat_settled (d : Decimal) : d.settled.toRat = d.toRat := by
  cases hzero : d.isZero with
  | true =>
    have hunscaled : d.unscaled = 0 := by simpa [isZero] using hzero
    simp [settled, hzero, toRat, hunscaled]
  | false =>
    by_cases hwide : 0 < d.scale ∨ trailingZerosWritten < -d.scale
    · rw [settled_eq_self hzero hwide]
    · have habs : -d.scale = (d.scale.natAbs : Int) := by omega
      rw [settled_of_zeros hzero (by omega) (by omega), toRat, toRat, habs, zpow_natCast]
      push_cast
      rw [mul_one]

theorem toText_settled (d : Decimal) : d.settled.toText = d.toText := by
  cases hzero : d.isZero with
  | true =>
    rw [settled, hzero, if_pos rfl, toText, toText, hzero]
    rfl
  | false =>
    by_cases hwide : 0 < d.scale ∨ trailingZerosWritten < -d.scale
    · rw [settled_eq_self hzero hwide]
    · have hpow : (0 : Int) < 10 ^ d.scale.natAbs := by positivity
      have hunscaled : d.unscaled ≠ 0 := by simpa [isZero] using hzero
      have hzero' : isZero ⟨d.unscaled * 10 ^ d.scale.natAbs, 0⟩ = false := by
        simpa [isZero] using hunscaled
      have hsign : (d.unscaled * 10 ^ d.scale.natAbs < 0) ↔ d.unscaled < 0 :=
        ⟨fun h => neg_of_mul_neg_left h hpow.le, fun h => mul_neg_of_neg_of_pos h hpow⟩
      have habs : (d.unscaled * 10 ^ d.scale.natAbs).natAbs * 10 ^ (0 : Int).natAbs =
          d.unscaled.natAbs * 10 ^ d.scale.natAbs := by
        rw [Int.natAbs_mul, Int.natAbs_pow, Int.natAbs_zero, pow_zero, mul_one]
        rfl
      have hnone : ¬trailingZerosWritten < -(0 : Int) := by decide
      rw [settled_of_zeros hzero (by omega) (by omega)]
      refine String.toList_inj.mp ?_
      rw [toList_toText hzero', toList_toText hzero, if_neg (by omega : ¬0 < d.scale),
        if_neg (by omega : ¬trailingZerosWritten < -d.scale), toList_zeros hzero]
      simp only [hsign]
      rw [if_neg (Int.lt_irrefl 0), if_neg hnone]
      exact congrArg _ ((toList_zeros hzero').trans (congrArg _ habs))

end Decimal

end ObjectQuery
