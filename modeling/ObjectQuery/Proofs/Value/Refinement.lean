import Mathlib.Data.List.Forall2
import ObjectQuery.Proofs.Value.Comparison
import ObjectQuery.Proofs.Value.Symmetry

/-!
Loose equality refined by the strict one. Main statement: values that are strictly equal are loosely
equal. What is strictly equal is so position by position, and each member of a set or entry of a map
thus has a loosely equal one where loose equality looks for it.
-/

namespace ObjectQuery.Value

/-! ### Counterparts -/

theorem exists_of_forall₂ {α β : Type} {r : α → β → Prop} {as : List α} {bs : List β}
    (h : List.Forall₂ r as bs) : ∀ a ∈ as, ∃ b ∈ bs, r a b := by
  induction h with
  | nil => simp
  | @cons a b as bs hab _ ih =>
    intro x hx
    rcases List.mem_cons.mp hx with rfl | hx
    · exact ⟨b, by simp, hab⟩
    · obtain ⟨y, hy, hxy⟩ := ih x hx
      exact ⟨y, by simp [hy], hxy⟩

theorem forall₂_looseEq_of_strictEqList {as bs : List Value}
    (h : ∀ a ∈ as, ∀ b : Value, a.strictEq b → a.looseEq b) (heq : strictEqList as bs) :
    List.Forall₂ (fun a b : Value => a.looseEq b) as bs := by
  refine ((List.forall₂_and_left as bs).mpr ⟨h, strictEqList_iff.mp heq⟩).imp ?_
  rintro a b ⟨hle, hab⟩
  exact hle b hab

theorem forall₂_looseEq_of_strictEqEntries {as bs : List (Value × Value)}
    (h : ∀ a ∈ as, (∀ b : Value, a.1.strictEq b → a.1.looseEq b) ∧
      ∀ b : Value, a.2.strictEq b → a.2.looseEq b)
    (heq : strictEqEntries as bs) :
    List.Forall₂ (fun a b : Value × Value => a.1.looseEq b.1 ∧ a.2.looseEq b.2) as bs := by
  refine ((List.forall₂_and_left as bs).mpr ⟨h, strictEqEntries_iff.mp heq⟩).imp ?_
  rintro a b ⟨⟨hkey, hvalue⟩, hab⟩
  exact ⟨hkey b.1 hab.1, hvalue b.2 hab.2⟩

/-! ### Equal values of one kind -/

/-- Each of the routes by which numbers are compared finds numbers of one kind equal that are. -/
theorem compareNumbers?_of_strictEq {left right : Value} (hnumeric : left.isNumeric)
    (heq : left.strictEq right) : left.compareNumbers? right = some .eq := by
  cases left with
  | byte n | short n | int n | long n =>
    cases right <;> first | cases heq | skip
    obtain rfl := beq_iff_eq.mp heq
    exact congrArg some Std.ReflCmp.compare_self
  | bigInteger n =>
    cases right <;> first | cases heq | skip
    obtain rfl := beq_iff_eq.mp heq
    rw [compareNumbers?_eq_decimals (.inl rfl)]
    exact congrArg some (beq_iff_eq.mp (Decimal.beq_iff.mpr rfl))
  | decimal d =>
    cases right <;> first | cases heq | skip
    rw [compareNumbers?_eq_decimals (.inl rfl)]
    exact congrArg some (beq_iff_eq.mp heq)
  | float x =>
    cases right <;> first | cases heq | skip
    rw [compareNumbers?_of_binary? rfl rfl,
      Binary.compare?_convert BinaryFormat.single_widens_double]
    exact beq_iff_eq.mp heq
  | double x =>
    cases right <;> first | cases heq | skip
    rw [compareNumbers?_of_binary? rfl rfl]
    exact beq_iff_eq.mp heq
  | _ => cases hnumeric

theorem looseEq_of_strictEq {left right : Value} (heq : left.strictEq right) :
    left.looseEq right := by
  induction left using induction_children generalizing right with
  | step left ih =>
    cases left with
    | null | char c | string s =>
      cases right <;> first | exact heq | cases heq
    | array items | list items =>
      cases right <;> first | cases heq | skip
      have hitems := forall₂_looseEq_of_strictEqList (fun a ha b => ih a ha) heq
      rw [looseEq, Bool.and_eq_true, beq_iff_eq, looseEqList_iff]
      exact ⟨hitems.length_eq, hitems⟩
    | set items =>
      cases right <;> first | cases heq | skip
      have hitems := forall₂_looseEq_of_strictEqList (fun a ha b => ih a ha) heq
      rw [looseEq, Bool.and_eq_true, beq_iff_eq, looseSubset_iff]
      exact ⟨hitems.length_eq, exists_of_forall₂ hitems⟩
    | map entries =>
      cases right <;> first | cases heq | skip
      have hentries := forall₂_looseEq_of_strictEqEntries (fun entry hentry =>
        ⟨fun b => ih entry.1 (List.mem_append_left _ (List.mem_map_of_mem hentry)),
          fun b => ih entry.2 (List.mem_append_right _ (List.mem_map_of_mem hentry))⟩) heq
      rw [looseEq, Bool.and_eq_true, beq_iff_eq, looseSubmap_iff]
      exact ⟨hentries.length_eq, exists_of_forall₂ hentries⟩
    | _ =>
      rw [looseEq_of_isAtom (by exact trivial)]
      split
      · rename_i hnumeric
        rw [beq_iff_eq]
        exact compareNumbers?_of_strictEq (Bool.and_eq_true_iff.mp hnumeric).1 heq
      · exact heq

end ObjectQuery.Value
