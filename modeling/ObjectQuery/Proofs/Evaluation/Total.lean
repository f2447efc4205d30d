import ObjectQuery.Proofs.Evaluation.Aggregate
import ObjectQuery.Proofs.Number.Quotient
import ObjectQuery.Proofs.Value.Comparison

/-!
Totals and means of numbers with a decimal among them. Main statement: what is added up are the
values that have a decimal form, so the total accounts for all values exactly if none of them is an
infinity or not-a-number; the mean is that total over the number of all values in any case.
-/

namespace ObjectQuery

namespace Value

/-- The number that a total takes a value for. -/
def rational? (value : Value) : Option ℚ := value.toDecimal?.map Decimal.toRat

theorem isFinite_iff {value : Value} (hnumeric : value.isNumeric) :
    value.IsFinite ↔ ∃ x, value.rational? = some x := by
  constructor
  · intro h
    obtain ⟨d, hd⟩ := h.exists_toDecimal?
    exact ⟨d.toRat, by rw [rational?, hd]; rfl⟩
  · rintro ⟨x, hx⟩
    obtain ⟨d, hd, -⟩ := Option.map_eq_some_iff.mp hx
    exact ⟨hnumeric, fun y hy => isFinite_of_toDecimal? hy hd⟩

end Value

/-- Every value has a number, and the numbers add up to the total. -/
def AccountsFor (total : ℚ) (values : List Value) : Prop :=
  ∃ numbers : List ℚ, values.map Value.rational? = numbers.map some ∧ numbers.sum = total

theorem accountsFor_iff {values : List Value} (hnumeric : ∀ value ∈ values, value.isNumeric) :
    AccountsFor (values.filterMap Value.rational?).sum values ↔
      ∀ value ∈ values, value.IsFinite := by
  constructor
  · rintro ⟨numbers, hnumbers, -⟩ value hvalue
    have hmem : value.rational? ∈ numbers.map some := hnumbers ▸ List.mem_map_of_mem hvalue
    obtain ⟨x, -, hx⟩ := List.mem_map.mp hmem
    exact (Value.isFinite_iff (hnumeric value hvalue)).mpr ⟨x, hx.symm⟩
  · intro h
    refine ⟨values.filterMap Value.rational?, ?_, rfl⟩
    induction values with
    | nil => rfl
    | cons value rest ih =>
      rw [List.forall_mem_cons] at hnumeric h
      obtain ⟨x, hx⟩ := (Value.isFinite_iff hnumeric.1).mp h.1
      rw [List.filterMap_cons_some hx, List.map_cons, List.map_cons, hx, ih hnumeric.2 h.2]

theorem toRat_decimalTotal (values : List Value) :
    (decimalTotal values).toRat = (values.filterMap Value.rational?).sum := by
  rw [decimalTotal, Decimal.toRat_foldl_add, Decimal.toRat_ofInt, Int.cast_zero, zero_add,
    List.map_filterMap]
  rfl

namespace AggregateKind

theorem requireNumeric_of_isNumeric (kind : AggregateKind) {values : List Value}
    (h : ∀ value ∈ values, value.isNumeric) : kind.requireNumeric values = .ok () := by
  have hnone : values.find? (fun value => !value.isNumeric) = none := by
    simpa [List.find?_eq_none] using h
  rw [requireNumeric, hnone]

theorem filter_not_isNull_of_isNumeric {values : List Value}
    (h : ∀ value ∈ values, value.isNumeric) :
    (values.filter fun value => !value.isNull) = values := by
  refine List.filter_eq_self.mpr fun value hvalue => ?_
  rw [Value.isNull_of_isNumeric (h value hvalue)]
  rfl

section Numbers

variable {values : List Value} (hnumeric : ∀ value ∈ values, value.isNumeric) (hne : values ≠ [])

include hnumeric hne

theorem sum_of_isNumeric : sum.compute values = .ok (total values) := by
  simp only [compute, filter_not_isNull_of_isNumeric hnumeric,
    requireNumeric_of_isNumeric sum hnumeric, List.isEmpty_eq_false_iff.mpr hne]
  rfl

theorem avg_of_isNumeric : avg.compute values = .ok (mean values) := by
  simp only [compute, filter_not_isNull_of_isNumeric hnumeric,
    requireNumeric_of_isNumeric avg hnumeric, List.isEmpty_eq_false_iff.mpr hne]
  rfl

end Numbers

/-- Of numbers with a decimal among them the sum is the decimal total of those that have a decimal
form, and the mean is this total over the number of all of them, to a hundred digits, if there is a
scale for it. The total is that of all numbers exactly if none of them is an infinity or
not-a-number. -/
theorem decimal_totals_account_iff (values : List Value)
    (hnumeric : ∀ value ∈ values, value.isNumeric) (hdecimal : values.any isDecimal) :
    ∃ total mean : Decimal, sum.compute values = .ok (.decimal total) ∧
      avg.compute values = .ok (.decimal mean) ∧
      total.toRat = (values.filterMap Value.rational?).sum ∧
      (Decimal.scaleFits (total.quotient (.ofInt values.length)).scale →
        mean.Approximates (total.toRat / values.length)) ∧
      (AccountsFor total.toRat values ↔ ∀ value ∈ values, value.IsFinite) := by
  have hne : values ≠ [] := by
    rintro rfl
    cases hdecimal
  have hlength : (Decimal.ofInt values.length).isZero = false := by
    simp [Decimal.isZero, Decimal.ofInt, hne]
  refine ⟨decimalTotal values, (decimalTotal values).div (.ofInt values.length), ?_, ?_,
    toRat_decimalTotal values, ?_, ?_⟩
  · rw [sum_of_isNumeric hnumeric hne, total, if_pos hdecimal]
  · rw [avg_of_isNumeric hnumeric hne, mean, if_pos hdecimal]
  · intro hfits
    have hmean := (decimalTotal values).div_approximates hlength hfits
    rwa [Decimal.toRat_ofInt, Int.cast_natCast] at hmean
  · rw [toRat_decimalTotal]
    exact accountsFor_iff hnumeric

theorem decimal_totals_account_iff_oneAndHalf :
    let values : List Value := [.int 1, .decimal ⟨5, 1⟩]
    (∀ value ∈ values, value.isNumeric) ∧ values.any isDecimal ∧
      ∃ total mean : Decimal, sum.compute values = .ok (.decimal total) ∧
        avg.compute values = .ok (.decimal mean) ∧
        total.toRat = (values.filterMap Value.rational?).sum ∧
        mean.Approximates (total.toRat / values.length) ∧
        (AccountsFor total.toRat values ↔ ∀ value ∈ values, value.IsFinite) := by
  intro values
  have hnumeric : ∀ value ∈ values, value.isNumeric := by decide
  obtain ⟨total, mean, hsum, havg, htotal, hmean, hiff⟩ :=
    decimal_totals_account_iff values hnumeric rfl
  obtain rfl : total = ⟨15, 1⟩ := by
    injection Except.ok.inj hsum with h
    exact h.symm
  exact ⟨hnumeric, rfl, _, mean, hsum, havg, htotal, hmean (by cbv), hiff⟩

/-- Not-a-number leaves a decimal total as it is, but counts for the mean. -/
theorem decimal_total_without_nan :
    let values : List Value := [.decimal ⟨15, 1⟩, .double .nan]
    sum.compute values = .ok (.decimal ⟨15, 1⟩) ∧ avg.compute values = .ok (.decimal ⟨75, 2⟩) := by
  intro values
  exact ⟨rfl, by cbv⟩

end AggregateKind

end ObjectQuery
