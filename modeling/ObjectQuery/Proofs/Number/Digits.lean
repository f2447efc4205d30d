import Mathlib
import ObjectQuery.Number.Decimal.Text

/-!
Digits of natural numbers as texts have them, and what is read from them.
-/

namespace ObjectQuery

theorem head?_toDigits_ne_zero {n : ℕ} (hpos : 0 < n) : (Nat.toDigits 10 n).head? ≠ some '0' := by
  induction n using Nat.strongRecOn with
  | ind n ih =>
    rw [Nat.toDigits_eq_if (by decide)]
    split
    · rename_i hlt
      have : ∀ m < 10, 0 < m → [Nat.digitChar m].head? ≠ some '0' := by decide
      exact this n hlt hpos
    · rw [List.head?_append_of_ne_nil _ Nat.toDigits_ne_nil]
      exact ih (n / 10) (by omega) (by omega)

theorem toDigits_mul_ten_pow {n : ℕ} (hpos : 0 < n) (k : ℕ) :
    Nat.toDigits 10 (n * 10 ^ k) = Nat.toDigits 10 n ++ List.replicate k '0' := by
  induction k with
  | zero => simp
  | succ k ih =>
    have hge : 10 ≤ n * 10 ^ (k + 1) := by
      have := Nat.mul_pos hpos (Nat.pow_pos (n := k) (by decide : 0 < 10))
      rw [Nat.pow_succ, ← Nat.mul_assoc]
      omega
    rw [Nat.toDigits_of_base_le (by decide) hge, Nat.pow_succ, ← Nat.mul_assoc,
      Nat.mul_div_cancel _ (by decide), ih, Nat.mul_mod_left, List.append_assoc,
      List.replicate_succ']
    rfl

/-- Digits, at least one of them. -/
structure Digits (cs : List Char) : Prop where
  nonempty : cs ≠ []
  digit : ∀ c ∈ cs, c.isDigit

variable {digits : List Char}

theorem Digits.append_left {before : List Char} (h : Digits digits)
    (hbefore : ∀ c ∈ before, c.isDigit) : Digits (before ++ digits) :=
  ⟨by simp [h.nonempty], fun c hc => (List.mem_append.mp hc).elim (hbefore c) (h.digit c)⟩

theorem isDigit_of_mem_replicate {n : ℕ} {c : Char} (h : c ∈ List.replicate n '0') : c.isDigit := by
  rw [(List.mem_replicate.mp h).2]
  rfl

theorem ne_of_isDigit {c d : Char} (h : c.isDigit) (hd : d.isDigit = false) : c ≠ d := by
  rintro rfl
  rw [h] at hd
  cases hd

def signText (negative : Bool) : List Char := if negative then ['-'] else []

theorem toList_toString_nat (n : ℕ) : (toString n).toList = Nat.toDigits 10 n := by
  simp [toString, Nat.repr]

theorem toList_toString_int (n : Int) :
    (toString n).toList = signText (n < 0) ++ Nat.toDigits 10 n.natAbs := by
  cases n with
  | ofNat n => simp [toString, Int.repr, Nat.repr, signText]
  | negSucc n => simp [toString, Int.repr, Nat.repr, signText]

theorem digits_toDigits (n : ℕ) : Digits (Nat.toDigits 10 n) :=
  ⟨Nat.toDigits_ne_nil, fun c hc => Nat.isDigit_of_mem_toDigits (by decide) (by decide) hc⟩

theorem forall_mem_signed {p : Char → Prop} (hsign : p '-') (hdigit : ∀ c, c.isDigit → p c)
    (negative : Bool) (h : ∀ c ∈ digits, c.isDigit) : ∀ c ∈ signText negative ++ digits, p c := by
  intro c hc
  rcases List.mem_append.mp hc with hc | hc
  · cases negative with
    | false => cases hc
    | true => rwa [List.mem_singleton.mp hc]
  · exact hdigit c (h c hc)

theorem ofDigitChars_replicate_append (n : ℕ) (digits : List Char) :
    Nat.ofDigitChars 10 (List.replicate n '0' ++ digits) 0 = Nat.ofDigitChars 10 digits 0 := by
  induction n with
  | zero => rfl
  | succ n ih =>
    rw [List.replicate_succ, List.cons_append, Nat.ofDigitChars_cons]
    exact ih

namespace Numeral

theorem digit?_eq (c : Char) :
    digit? c = if c.isDigit then some (c.toNat - '0'.toNat) else none := rfl

theorem digit?_of_isDigit {c : Char} (h : c.isDigit) :
    digit? c = some (c.toNat - '0'.toNat) := by
  rw [digit?_eq, if_pos h]

theorem digit?_eq_none {c : Char} (h : c.isDigit = false) : digit? c = none := by
  rw [digit?_eq, h, if_neg Bool.false_ne_true]

theorem foldlM_digit?_of_isDigit {cs : List Char} (h : ∀ c ∈ cs, c.isDigit) (value : ℕ) :
    cs.foldlM (fun value c => do return value * 10 + (← digit? c)) value =
      some (Nat.ofDigitChars 10 cs value) := by
  induction cs generalizing value with
  | nil => simp
  | cons c rest ih =>
    rw [List.forall_mem_cons] at h
    rw [List.foldlM_cons, digit?_of_isDigit h.1, Nat.ofDigitChars_cons, Nat.mul_comm 10]
    exact ih h.2 _

theorem natural?_of_digits (hdigits : Digits digits) :
    natural? digits = some (Nat.ofDigitChars 10 digits 0) := by
  obtain ⟨c, rest, rfl⟩ := List.exists_cons_of_ne_nil hdigits.nonempty
  have h := List.forall_mem_cons.mp hdigits.digit
  have hplain : rest.filter (· != '_') = rest := by
    refine List.filter_eq_self.mpr fun c hc => ?_
    rw [bne_iff_ne]
    rintro rfl
    cases h.2 _ hc
  rw [natural?, digit?_of_isDigit h.1, hplain, Nat.ofDigitChars_cons, Nat.mul_zero, Nat.zero_add]
  exact foldlM_digit?_of_isDigit h.2 _

end Numeral

end ObjectQuery
