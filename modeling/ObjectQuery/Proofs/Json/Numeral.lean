import ObjectQuery.Json.Reader
import ObjectQuery.Json.Writer
import ObjectQuery.Proofs.Json.Reader
import ObjectQuery.Proofs.Number.Digits
import ObjectQuery.Proofs.Number.Shortest

/-!
Numerals that are written and read again. Main statements: every number that is written is a
numeral to its end, and an integer of 64 bits is read as itself.
-/

namespace ObjectQuery.Json

/-- Text in front of which a numeral ends. -/
def EndsNumeral (rest : List Char) : Prop :=
  ∀ c ∈ rest.head?, c.isDigit = false ∧ c ≠ '.' ∧ c ≠ 'e' ∧ c ≠ 'E'

theorem endsNumeral_nil : EndsNumeral [] := fun c h => by cases h

/-- Text that is read as a numeral, whatever ends it. -/
def IsNumeral (cs : List Char) (numeral : Numeral) : Prop :=
  ∀ rest, EndsNumeral rest → numeral? (cs ++ rest) = some (numeral, rest)

/-! ### Digits -/

def digitValue (c : Char) : ℕ := c.toNat - '0'.toNat

variable {cs whole digits rest : List Char}

theorem takeDigits_append (hdigits : ∀ c ∈ digits, c.isDigit)
    (hrest : ∀ c ∈ rest.head?, c.isDigit = false) :
    takeDigits (digits ++ rest) = (digits.map digitValue, rest) := by
  induction digits with
  | nil =>
    cases rest with
    | nil => rfl
    | cons c rest =>
      rw [List.nil_append, takeDigits, ObjectQuery.Numeral.digit?_eq_none (hrest c rfl)]
      rfl
  | cons c digits ih =>
    rw [List.forall_mem_cons] at hdigits
    rw [List.cons_append, takeDigits, ObjectQuery.Numeral.digit?_of_isDigit hdigits.1,
      ih hdigits.2]
    rfl

theorem digits?_append (h : Digits digits) (hrest : ∀ c ∈ rest.head?, c.isDigit = false) :
    digits? (digits ++ rest) = some (digits.map digitValue, rest) := by
  obtain ⟨c, others, rfl⟩ := List.exists_cons_of_ne_nil h.nonempty
  rw [digits?, takeDigits_append h.digit hrest]
  rfl

theorem digitValue_ne_zero {c : Char} (h : c.isDigit) (hzero : c ≠ '0') : digitValue c ≠ 0 := by
  intro h0
  simp only [Char.isDigit, Bool.and_eq_true, decide_eq_true_eq, ge_iff_le,
    UInt32.le_iff_toNat_le] at h
  refine hzero (Char.toNat_inj.mp ?_)
  change c.toNat - 48 = 0 at h0
  change 48 ≤ c.toNat ∧ c.toNat ≤ 57 at h
  change c.toNat = 48
  omega

/-! ### The parts of a numeral -/

def fractionText : Option (List Char) → List Char
  | none => []
  | some digits => '.' :: digits

def exponentText : Option (Bool × List Char) → List Char
  | none => []
  | some (negative, digits) => 'e' :: (if negative then '-' else '+') :: digits

/-- Digits in front of the point: a zero stands only if there are no others. -/
structure WholeDigits (cs : List Char) : Prop extends Digits cs where
  lead : cs.head? = some '0' → cs.length = 1

theorem WholeDigits.singleton {c : Char} (h : c.isDigit) : WholeDigits [c] :=
  ⟨⟨by simp, by simpa using h⟩, fun _ => rfl⟩

/-- The value of a written exponent. -/
def exponentValue (exponent : Bool × List Char) : Int :=
  let value : Int :=
    ((exponent.2.map digitValue).foldl (fun value digit => value * 10 + digit) 0 : ℕ)
  if exponent.1 then -value else value

theorem exponent?_append {written : Bool × List Char} (h : Digits written.2)
    (hrest : EndsNumeral rest) :
    exponent? ((if written.1 then '-' else '+') :: (written.2 ++ rest)) =
      some (exponentValue written, rest) := by
  have hread := digits?_append h fun c hc => (hrest c hc).1
  obtain ⟨negative, digits⟩ := written
  cases negative <;> simp [exponent?, hread, exponentValue]

/-- What `numeral?` makes of the text behind the whole digits. -/
def afterWhole? (negative : Bool) (whole : List ℕ) (cs : List Char) :
    Option (Numeral × List Char) := do
  let (fraction, rest) ← match cs with
    | '.' :: rest => (digits? rest).map fun (digits, rest) => (some digits, rest)
    | _ => some (none, cs)
  let (exponent, rest) ← match rest with
    | 'e' :: rest | 'E' :: rest => (exponent? rest).map fun (e, rest) => (some e, rest)
    | _ => some (none, rest)
  return (⟨negative, whole, fraction, exponent⟩, rest)

theorem afterWhole?_append {fraction : Option (List Char)} {exponent : Option (Bool × List Char)}
    (negative : Bool) (whole : List ℕ) (hfraction : ∀ digits ∈ fraction, Digits digits)
    (hexponent : ∀ written ∈ exponent, Digits written.2) (hrest : EndsNumeral rest) :
    afterWhole? negative whole (fractionText fraction ++ (exponentText exponent ++ rest)) =
      some (⟨negative, whole, fraction.map (·.map digitValue), exponent.map exponentValue⟩,
        rest) := by
  have hplain : ∀ c tail, rest = c :: tail → c ≠ '.' ∧ c ≠ 'e' ∧ c ≠ 'E' :=
    fun c tail h => (hrest c (by simp [h])).2
  have hend : ∀ c ∈ rest.head?, c.isDigit = false := fun c hc => (hrest c hc).1
  cases fraction with
  | none =>
    cases exponent with
    | none =>
      cases rest with
      | nil => rfl
      | cons c tail => simp [afterWhole?, fractionText, exponentText, hplain c tail rfl]
    | some written =>
      simp [afterWhole?, fractionText, exponentText, exponent?_append (hexponent written rfl) hrest]
  | some fraction =>
    have hdigits := hfraction fraction rfl
    cases exponent with
    | none =>
      have hread := digits?_append hdigits hend
      cases rest with
      | nil =>
        rw [List.append_nil] at hread
        simp [afterWhole?, fractionText, exponentText, hread]
      | cons c tail => simp [afterWhole?, fractionText, exponentText, hread, hplain c tail rfl]
    | some written =>
      have hread : digits? (fraction ++ (exponentText (some written) ++ rest)) =
          some (fraction.map digitValue, exponentText (some written) ++ rest) :=
        digits?_append hdigits (by simp [exponentText])
      have hexp := exponent?_append (hexponent written rfl) hrest
      simp only [exponentText, List.cons_append] at hread
      simp [afterWhole?, fractionText, exponentText, hread, hexp]

theorem numeral?_of_whole (negative : Bool) (hwhole : WholeDigits whole)
    (hrest : ∀ c ∈ rest.head?, c.isDigit = false) :
    numeral? (signText negative ++ (whole ++ rest)) =
      afterWhole? negative (whole.map digitValue) rest := by
  have hdigits := digits?_append hwhole.toDigits hrest
  obtain ⟨c, others, rfl⟩ := List.exists_cons_of_ne_nil hwhole.nonempty
  have hdigit := hwhole.digit c (List.mem_cons_self ..)
  have hc : c ≠ '-' := by
    rintro rfl
    cases hdigit
  have hlead : ¬(digitValue c = 0 ∧ 0 < others.length) := by
    rintro ⟨hzero, hlong⟩
    obtain rfl : c = '0' := by_contra fun hne => digitValue_ne_zero hdigit hne hzero
    have hone := hwhole.lead rfl
    rw [List.length_cons] at hone
    omega
  rw [List.cons_append, List.map_cons] at hdigits
  rw [List.cons_append, List.map_cons]
  cases negative with
  | false =>
    simp [numeral?, signText, hc, hdigits, hlead]
    rfl
  | true =>
    simp [numeral?, signText, hdigits, hlead]
    rfl

theorem isNumeral_of_parts (negative : Bool) (fraction : Option (List Char))
    (exponent : Option (Bool × List Char)) (hwhole : WholeDigits whole)
    (hfraction : ∀ digits ∈ fraction, Digits digits)
    (hexponent : ∀ written ∈ exponent, Digits written.2) :
    IsNumeral (signText negative ++ whole ++ fractionText fraction ++ exponentText exponent)
      ⟨negative, whole.map digitValue, fraction.map (·.map digitValue),
        exponent.map exponentValue⟩ := by
  intro rest hrest
  have hbehind : ∀ c ∈ (fractionText fraction ++ (exponentText exponent ++ rest)).head?,
      c.isDigit = false := by
    cases fraction with
    | some digits => simp [fractionText]
    | none =>
      cases exponent with
      | some written => simp [fractionText, exponentText]
      | none => exact fun c hc => (hrest c hc).1
  simp only [List.append_assoc]
  rw [numeral?_of_whole negative hwhole hbehind]
  exact afterWhole?_append negative _ hfraction hexponent hrest

/-! ### Numbers as they are written -/

theorem wholeDigits_toDigits (n : ℕ) : WholeDigits (Nat.toDigits 10 n) := by
  refine ⟨digits_toDigits n, fun hzero => ?_⟩
  rcases Nat.eq_zero_or_pos n with rfl | hpos
  · rfl
  · exact absurd hzero (head?_toDigits_ne_zero hpos)

theorem isNumeral_integer (n : Int) :
    IsNumeral (renderNumber (.integer n)).toList
      ⟨n < 0, (Nat.toDigits 10 n.natAbs).map digitValue, none, none⟩ := by
  have h := isNumeral_of_parts (n < 0) none none (wholeDigits_toDigits n.natAbs) (by simp) (by simp)
  rw [renderNumber, toList_toString_int]
  simpa [fractionText, exponentText] using h

theorem wholeDigits_of_head {c : Char} (h : Digits (c :: cs)) (hzero : c ≠ '0') :
    WholeDigits (c :: cs) :=
  ⟨h, fun heq => absurd (Option.some.inj heq) hzero⟩

/-- Text that is a numeral when a sign is put in front or left out. -/
def IsMagnitude (cs : List Char) : Prop :=
  ∃ whole fraction exponent, WholeDigits whole ∧ (∀ digits ∈ fraction, Digits digits) ∧
    (∀ written ∈ exponent, Digits written.2) ∧
      cs = whole ++ fractionText fraction ++ exponentText exponent

theorem IsMagnitude.exists_isNumeral (h : IsMagnitude cs) (negative : Bool) :
    ∃ numeral, IsNumeral (signText negative ++ cs) numeral := by
  obtain ⟨whole, fraction, exponent, hwhole, hfraction, hexponent, rfl⟩ := h
  have hparts := isNumeral_of_parts negative fraction exponent hwhole hfraction hexponent
  rw [List.append_assoc, List.append_assoc, ← List.append_assoc whole] at hparts
  exact ⟨_, hparts⟩

theorem isMagnitude_positional {c : Char} (h : Digits (c :: cs)) (hzero : c ≠ '0')
    (exponent : Int) : IsMagnitude (positional (c :: cs) exponent) := by
  rw [positional]
  split
  · refine ⟨['0'], some (List.replicate (exponent.natAbs - 1) '0' ++ c :: cs), none, .singleton rfl,
      ?_, by simp, by simp [fractionText, exponentText]⟩
    rintro _ ⟨⟩
    exact h.append_left fun _ => isDigit_of_mem_replicate
  · refine ⟨_, some _, none, ?_, ?_, by simp, (List.append_nil _).symm⟩
    · rw [List.take_succ_cons, List.cons_append]
      refine wholeDigits_of_head ⟨by simp, fun d hd => ?_⟩ hzero
      rcases List.mem_cons.mp hd with rfl | hd
      · exact h.digit d (by simp)
      · rcases List.mem_append.mp hd with hd | hd
        · exact h.digit d (List.mem_cons_of_mem _ (List.mem_of_mem_take hd))
        · exact isDigit_of_mem_replicate hd
    · rintro _ ⟨⟩
      split
      · exact ⟨by simp, by simp⟩
      · exact ⟨‹_›, fun d hd => h.digit d (List.mem_of_mem_drop hd)⟩

theorem isMagnitude_withExponent {c : Char} (h : Digits (c :: cs)) (exponent : Int) :
    IsMagnitude (withExponent (c :: cs) exponent) := by
  have hexponent : ∀ written ∈ some (decide (exponent < 0), Nat.toDigits 10 exponent.natAbs),
      Digits written.2 := by
    rintro _ ⟨⟩
    exact digits_toDigits _
  have hfirst : WholeDigits [c] := .singleton (h.digit c (by simp))
  cases cs with
  | nil =>
    refine ⟨[c], none, _, hfirst, by simp, hexponent, ?_⟩
    simp only [withExponent, toList_toString_nat, fractionText, exponentText, decide_eq_true_eq,
      List.append_nil]
  | cons second others =>
    refine ⟨[c], some (second :: others), _, hfirst, ?_, hexponent, ?_⟩
    · rintro _ ⟨⟩
      exact ⟨by simp, fun d hd => h.digit d (List.mem_cons_of_mem _ hd)⟩
    · simp only [withExponent, toList_toString_nat, fractionText, exponentText, decide_eq_true_eq,
        List.cons_append, List.nil_append]

theorem exists_isNumeral_renderBinary {f : BinaryFormat} (hf : f.Searchable)
    (range : ExponentRange) (negative : Bool) {units : ℕ} (fits : f.Fits units) :
    ∃ numeral, IsNumeral (renderBinary range (.finite negative units fits)).toList numeral := by
  have hsign : ∀ magnitude : List Char,
      (if negative then '-' :: magnitude else magnitude) = signText negative ++ magnitude := by
    intro magnitude
    cases negative <;> rfl
  rw [renderBinary, hsign, String.toList_ofList]
  refine IsMagnitude.exists_isNumeral ?_ negative
  split
  · refine ⟨['0'], some ['0'], none, .singleton rfl, ?_, by simp, rfl⟩
    rintro _ ⟨⟩
    exact ⟨by simp, by simp⟩
  · rename_i hunits
    have hpos := BinaryFormat.shortestDigits_digits_pos hf fits (Nat.pos_of_ne_zero hunits) .even
    have hdigits := digits_toDigits (f.shortestDigits .even units).digits
    have hhead := head?_toDigits_ne_zero hpos
    simp only [toList_toString_nat]
    obtain ⟨c, cs, hcs⟩ := List.exists_cons_of_ne_nil hdigits.nonempty
    rw [hcs] at hdigits hhead ⊢
    split
    · exact isMagnitude_positional hdigits (fun heq => hhead (congrArg some heq)) _
    · exact isMagnitude_withExponent hdigits _

/-! ### Integers -/

theorem takeFitting_of_lt {count : ℕ} {digits : List ℕ}
    (h : digits.foldl (fun value digit => value * 10 + digit) count < UInt64.size) :
    takeFitting count digits =
      (digits.foldl (fun value digit => value * 10 + digit) count, []) := by
  induction digits generalizing count with
  | nil => rfl
  | cons digit rest ih =>
    have hle : ∀ (rest : List ℕ) (value : ℕ),
        value ≤ rest.foldl (fun value digit => value * 10 + digit) value := by
      intro rest
      induction rest with
      | nil => exact fun _ => le_rfl
      | cons next rest ih =>
        intro value
        have hstep : value ≤ value * 10 + next := by omega
        exact hstep.trans (ih _)
    rw [takeFitting, if_pos ((hle rest _).trans_lt h)]
    exact ih h

theorem foldl_digitValue (cs : List Char) (count : ℕ) :
    (cs.map digitValue).foldl (fun value digit => value * 10 + digit) count =
      Nat.ofDigitChars 10 cs count := by
  induction cs generalizing count with
  | nil => simp
  | cons c rest ih =>
    rw [List.map_cons, List.foldl_cons, ih, Nat.ofDigitChars_cons, Nat.mul_comm]
    rfl

theorem toJson_integer {n : Int} (h : (JsonNumber.integer n).InRange) :
    Numeral.toJson ⟨n < 0, (Nat.toDigits 10 n.natAbs).map digitValue, none, none⟩ = ofInt n := by
  obtain ⟨hlow, hhigh⟩ := h
  have hmin : Int64.minValue.toInt = -2 ^ 63 := by decide
  have hmax : (UInt64.size : Int) = 2 ^ 64 := by decide
  have hvalue : ((Nat.toDigits 10 n.natAbs).map digitValue).foldl
      (fun value digit => value * 10 + digit) 0 = n.natAbs := by
    rw [foldl_digitValue, Nat.ofDigitChars_toDigits (by decide) (by decide)]
  have hfits : takeFitting 0 ((Nat.toDigits 10 n.natAbs).map digitValue) = (n.natAbs, []) := by
    rw [takeFitting_of_lt, hvalue]
    rw [hvalue]
    omega
  rw [Numeral.toJson, hfits]
  by_cases hneg : n < 0
  · have hcount : (decide (0 < n.natAbs) && decide (n.natAbs ≤ Int64.minValue.toInt.natAbs)) := by
      simp only [Bool.and_eq_true, decide_eq_true_eq]
      omega
    have habs : -(n.natAbs : Int) = n := by omega
    simp only [hneg, decide_true, Bool.not_true, Bool.false_eq_true, if_false, if_pos hcount, habs]
  · have habs : (n.natAbs : Int) = n := by omega
    simp only [hneg, decide_false, Bool.not_false, if_true, habs]

end ObjectQuery.Json
