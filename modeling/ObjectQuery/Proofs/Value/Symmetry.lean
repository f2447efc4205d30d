import Mathlib.Data.List.Basic
import Mathlib.Order.Lattice
import ObjectQuery.Evaluation.Operation
import ObjectQuery.Proofs.Value.Renaming

/-!
The two sides of an equality. Main statement: loose equality is symmetric on values whose sets and
maps are told apart by it, that is, on which no two members are equal to one and the same value.
Without that a side with two equal members can lie within the other one and not the other way round.
-/

namespace ObjectQuery

variable {f : BinaryFormat}

/-! ### Numbers -/

theorem Binary.compare?_swap (x y : Binary f) :
    y.compare? x = (x.compare? y).map Ordering.swap := by
  rw [compare?, compare?]
  cases x.rank? with
  | none => cases y.rank? <;> rfl
  | some m =>
    cases y.rank? with
    | none => rfl
    | some n => exact congrArg some Std.OrientedCmp.eq_swap

theorem Decimal.compare_swap (a b : Decimal) : b.compare a = (a.compare b).swap := by
  simp only [compare, max_comm b.scale a.scale]
  exact Std.OrientedCmp.eq_swap

theorem beq_some_eq_swap (order : Option Ordering) :
    (order.map Ordering.swap == some .eq) = (order == some .eq) := by
  cases order with
  | none => rfl
  | some order => cases order <;> rfl

theorem Binary.beq_comm (x y : Binary f) : x.beq y = y.beq x := by
  rw [beq, beq, compare?_swap y x, beq_some_eq_swap]

theorem Decimal.beq_comm (a b : Decimal) : a.beq b = b.beq a := by
  rw [beq, beq, compare_swap b a]
  cases b.compare a <;> rfl

namespace Value

theorem compareNumbers?_swap (left right : Value) :
    right.compareNumbers? left = (left.compareNumbers? right).map Ordering.swap := by
  have hdecimals : (do return (← right.toDecimal?).compare (← left.toDecimal?) : Option Ordering) =
      (do return (← left.toDecimal?).compare (← right.toDecimal?) : Option Ordering).map
        Ordering.swap := by
    cases left.toDecimal? with
    | none => cases right.toDecimal? <;> rfl
    | some a =>
      cases right.toDecimal? with
      | none => rfl
      | some b => exact congrArg some (a.compare_swap b)
  rw [compareNumbers?.eq_def, compareNumbers?.eq_def, hdecimals]
  generalize (do return (← left.toDecimal?).compare (← right.toDecimal?) : Option Ordering) = last
  cases left.boundedIntegral? <;> cases right.boundedIntegral?
  case some.some => exact congrArg some Std.OrientedCmp.eq_swap
  all_goals
    cases left.binary? <;> cases right.binary? <;> first | rfl | exact Binary.compare?_swap _ _

/-! ### Strict equality -/

theorem forall₂_comm {α β : Type} {r : α → β → Prop} {as : List α} {bs : List β} :
    List.Forall₂ r as bs ↔ List.Forall₂ (fun b a => r a b) bs as :=
  ⟨.flip, .flip⟩

theorem strictEqList_comm {as bs : List Value}
    (h : ∀ a ∈ as, ∀ b : Value, a.strictEq b = b.strictEq a) :
    strictEqList as bs = strictEqList bs as := by
  rw [Bool.eq_iff_iff, strictEqList_iff, strictEqList_iff, forall₂_comm]
  exact forall₂_congr_of_mem fun b _ a ha => by rw [h a ha]

theorem strictEqEntries_comm {as bs : List (Value × Value)}
    (h : ∀ entry ∈ as, ∀ b : Value, entry.1.strictEq b = b.strictEq entry.1 ∧
      entry.2.strictEq b = b.strictEq entry.2) :
    strictEqEntries as bs = strictEqEntries bs as := by
  rw [Bool.eq_iff_iff, strictEqEntries_iff, strictEqEntries_iff, forall₂_comm]
  exact forall₂_congr_of_mem fun b _ a ha => by rw [(h a ha b.1).1, (h a ha b.2).2]

theorem strictEq_comm (left right : Value) : left.strictEq right = right.strictEq left := by
  induction left using induction_children generalizing right with
  | step left ih =>
    cases left with
    | array items | list items | set items =>
      cases right <;> first | rfl | exact strictEqList_comm ih
    | map entries =>
      cases right <;> try rfl
      refine strictEqEntries_comm fun entry hentry b => ⟨ih entry.1 ?_ b, ih entry.2 ?_ b⟩
      · exact List.mem_append_left _ (List.mem_map_of_mem hentry)
      · exact List.mem_append_right _ (List.mem_map_of_mem hentry)
    | object id typeName fields identity =>
      cases right <;> try rfl
      rename_i id' typeName' fields' identity'
      have hidentity : strictEqIdentity identity identity' =
        strictEqIdentity identity' identity := by
        cases identity with
        | none => cases identity' <;> rfl
        | some a =>
          cases identity' with
          | none => rfl
          | some b => exact ih a (by simp [children]) b
      rw [strictEq, strictEq, hidentity, Bool.beq_comm (a := id), Bool.beq_comm (a := typeName)]
    | float x => cases right <;> first | rfl | exact Binary.beq_comm _ _
    | double x => cases right <;> first | rfl | exact Binary.beq_comm _ _
    | decimal d => cases right <;> first | rfl | exact Decimal.beq_comm _ _
    | _ => cases right <;> first | rfl | exact Bool.beq_comm

/-! ### Loose equality -/

/-- Whether loose equality compares a value as a whole, and not as a text or by its parts. -/
def IsAtom : Value → Prop
  | null | char _ | string _ | array _ | list _ | set _ | map _ => False
  | _ => True

theorem looseEq_of_isAtom {left : Value} (h : left.IsAtom) (right : Value) :
    left.looseEq right =
      if left.isNumeric && right.isNumeric then compareNumbers? left right == some .eq
      else left.strictEq right := by
  cases left <;> first | rfl | exact h.elim

theorem looseEq_comm_of_isAtom {left : Value} (h : left.IsAtom) (right : Value) :
    left.looseEq right = right.looseEq left := by
  by_cases hright : right.IsAtom
  · rw [looseEq_of_isAtom h, looseEq_of_isAtom hright, compareNumbers?_swap right left,
      beq_some_eq_swap, strictEq_comm left right, Bool.and_comm]
  · rw [looseEq_of_isAtom h]
    cases right <;> first | exact absurd trivial hright |
      (cases left <;> first | rfl | exact h.elim)

theorem looseSubset_iff {as bs : List Value} :
    looseSubset as bs ↔ ∀ a ∈ as, ∃ b ∈ bs, a.looseEq b := by
  induction as with
  | nil => simp [looseSubset]
  | cons a as ih => simp [looseSubset, ih]

theorem looseSubmap_iff {as bs : List (Value × Value)} :
    looseSubmap as bs ↔ ∀ a ∈ as, ∃ b ∈ bs, a.1.looseEq b.1 ∧ a.2.looseEq b.2 := by
  induction as with
  | nil => simp [looseSubmap]
  | cons a as ih => simp [looseSubmap, ih]

theorem looseEqList_symm {as bs : List Value}
    (h : ∀ a ∈ as, ∀ b : Value, a.looseEq b → b.looseEq a) (heq : looseEqList as bs) :
    looseEqList bs as := by
  rw [looseEqList_iff] at heq ⊢
  refine (((List.forall₂_and_left as bs).mpr ⟨h, heq⟩).imp ?_).flip
  rintro a b ⟨hsymm, hab⟩
  exact hsymm b hab

/-- The values that loose equality looks into a value for. -/
def members : Value → List Value
  | array items | list items | set items => items
  | map entries => entries.map (·.1) ++ entries.map (·.2)
  | _ => []

/-- No two members of a set, and no two entries of a map, are equal to one and the same. -/
def Apart : Value → Prop
  | set items => items.Pairwise fun x y => ∀ z : Value, ¬ (x.looseEq z ∧ y.looseEq z)
  | map entries => entries.Pairwise fun x y => ∀ z : Value × Value,
      ¬ ((x.1.looseEq z.1 ∧ x.2.looseEq z.2) ∧ y.1.looseEq z.1 ∧ y.2.looseEq z.2)
  | _ => True

/-- A value in which loose equality tells the members of every set and every map apart. -/
inductive Separated : Value → Prop where
  | node {value : Value} (apart : value.Apart)
      (below : ∀ member ∈ value.members, Separated member) : Separated value

end Value

/-- Where as many things stand on the right as on the left, and each on the left has a partner on
the right that it shares with no other, each on the right has a partner. -/
theorem exists_partner {α β : Type} {r : α → β → Prop} {as : List α} {bs : List β}
    (hlength : as.length = bs.length) (hpartner : ∀ a ∈ as, ∃ b ∈ bs, r a b)
    (hapart : as.Pairwise fun x y => ∀ z, ¬ (r x z ∧ r y z)) : ∀ b ∈ bs, ∃ a ∈ as, r a b := by
  induction as generalizing bs with
  | nil =>
    obtain rfl := List.length_eq_zero_iff.mp hlength.symm
    simp
  | cons a as ih =>
    obtain ⟨hfirst, hrest⟩ := List.pairwise_cons.mp hapart
    obtain ⟨b, hb, hab⟩ := hpartner a (by simp)
    obtain ⟨before, after, rfl⟩ := List.append_of_mem hb
    have hothers : ∀ x ∈ as, ∃ y ∈ before ++ after, r x y := by
      intro x hx
      obtain ⟨y, hy, hxy⟩ := hpartner x (by simp [hx])
      have hne : y ≠ b := by
        rintro rfl
        exact hfirst x hx y ⟨hab, hxy⟩
      exact ⟨y, by simpa [hne] using hy, hxy⟩
    intro y hy
    by_cases heq : y = b
    · subst heq
      exact ⟨a, by simp, hab⟩
    · have hlength : as.length = (before ++ after).length := by
        simp only [List.length_cons, List.length_append] at hlength ⊢
        omega
      obtain ⟨x, hx, hxy⟩ := ih hlength hothers hrest y (by simpa [heq] using hy)
      exact ⟨x, by simp [hx], hxy⟩

namespace Value

/-- Only the side that equality takes from has to be separated for it to hold the other way round.
-/
theorem looseEq_symm {left : Value} (h : left.Separated) {right : Value}
    (heq : left.looseEq right) : right.looseEq left := by
  induction h generalizing right with
  | @node left hapart hbelow ih =>
    have hitems : ∀ {as bs : List Value}, (∀ a ∈ as, ∀ b : Value, a.looseEq b → b.looseEq a) →
        (as.length == bs.length && looseEqList as bs) →
        (bs.length == as.length && looseEqList bs as) := by
      intro as bs hsymm heq
      simp only [Bool.and_eq_true, beq_iff_eq] at heq ⊢
      exact ⟨heq.1.symm, looseEqList_symm hsymm heq.2⟩
    cases left with
    | null => cases right <;> first | rfl | cases heq
    | char c | string s => cases right <;> first | exact heq | exact (strictEq_comm _ _).trans heq
    | array items | list items =>
      cases right <;> first | cases heq | skip
      all_goals exact hitems (fun a ha b => ih a ha) heq
    | set items =>
      cases right <;> first | cases heq | skip
      rename_i others
      simp only [looseEq, Bool.and_eq_true, beq_iff_eq, looseSubset_iff] at heq ⊢
      refine ⟨heq.1.symm, fun b hb => ?_⟩
      obtain ⟨a, ha, hab⟩ := exists_partner (r := fun a b : Value => a.looseEq b) heq.1 heq.2 hapart
        b hb
      exact ⟨a, ha, ih a ha hab⟩
    | map entries =>
      cases right <;> first | cases heq | skip
      rename_i others
      simp only [looseEq, Bool.and_eq_true, beq_iff_eq, looseSubmap_iff] at heq ⊢
      refine ⟨heq.1.symm, fun b hb => ?_⟩
      obtain ⟨a, ha, hkey, hvalue⟩ := exists_partner
        (r := fun a b : Value × Value => a.1.looseEq b.1 ∧ a.2.looseEq b.2) heq.1 heq.2 hapart b hb
      refine ⟨a, ha, ih a.1 ?_ hkey, ih a.2 ?_ hvalue⟩
      · exact List.mem_append_left _ (List.mem_map_of_mem ha)
      · exact List.mem_append_right _ (List.mem_map_of_mem ha)
    | _ =>
      rw [← looseEq_comm_of_isAtom (by exact trivial)]
      exact heq

theorem looseEq_comm {left right : Value} (hleft : left.Separated) (hright : right.Separated) :
    left.looseEq right = right.looseEq left :=
  Bool.eq_iff_iff.mpr ⟨looseEq_symm hleft, looseEq_symm hright⟩

/-- Loose equality, and with it the operators of equality, does not depend on the sides. -/
theorem equality_symmetric {left right : Value} (hleft : left.Separated)
    (hright : right.Separated) :
    left.looseEq right = right.looseEq left ∧
      ∀ op : BinaryOperator, op = .eq ∨ op = .ne →
        op.comparison (.value left) (.value right) =
          op.comparison (.value right) (.value left) := by
  refine ⟨looseEq_comm hleft hright, fun op hop => ?_⟩
  rcases hop with rfl | rfl
  all_goals
    simp only [BinaryOperator.comparison, BinaryOperator.compareValues, looseEq_comm hleft hright]

theorem separated_of_members_eq_nil {value : Value} (h : value.members = []) : value.Separated := by
  refine ⟨?_, by simp [h]⟩
  cases value with
  | set items =>
    obtain rfl : items = [] := h
    exact List.Pairwise.nil
  | map entries =>
    have hentries : entries = [] := by simpa [members] using h
    subst hentries
    exact List.Pairwise.nil
  | _ => trivial

theorem text?_eq_of_looseEq {left right : Value} {text : String} (h : left.looseEq right)
    (hleft : TextMethod.text? left = some text) : TextMethod.text? right = some text := by
  have hchar : ∀ (c : Char) (s : String), isCharText c s → s = c.toString := by
    intro c s hs
    have hlist : s.toList = [c] := by simpa [isCharText] using hs
    rw [← String.toList_inj, hlist]
    simp
  cases left with
  | string s =>
    obtain rfl := Option.some.inj hleft
    cases right with
    | char c => exact congrArg some (hchar c s h).symm
    | string s' => exact congrArg some (beq_iff_eq.mp h : s = s').symm
    | _ => cases h
  | char c =>
    obtain rfl := Option.some.inj hleft
    cases right with
    | char c' => exact congrArg (some ∘ Char.toString) (beq_iff_eq.mp h : c = c').symm
    | string s => exact congrArg some (hchar c s h)
    | _ => cases h
  | _ => cases hleft

theorem separated_of_texts {items : List Value}
    (htexts : ∀ item ∈ items, (TextMethod.text? item).isSome)
    (hnodup : (items.map TextMethod.text?).Nodup) : (set items).Separated := by
  refine ⟨?_, fun item hitem => separated_of_members_eq_nil ?_⟩
  · refine List.Pairwise.imp_of_mem ?_ (List.pairwise_map.mp hnodup)
    rintro x y hx hy hne z ⟨hxz, hyz⟩
    obtain ⟨text, htext⟩ := Option.isSome_iff_exists.mp (htexts x hx)
    obtain ⟨text', htext'⟩ := Option.isSome_iff_exists.mp (htexts y hy)
    have heq := (text?_eq_of_looseEq hxz htext).symm.trans (text?_eq_of_looseEq hyz htext')
    exact hne (htext.trans (heq.trans htext'.symm))
  · have htext := htexts item hitem
    cases item <;> first | rfl | cases htext

/-- A set of two texts, and the set of the second one and of the character that the first one is. -/
theorem equality_symmetric_textsAndCharacter :
    (set [string "a", string "bc"]).looseEq (set [string "bc", char 'a']) = true ∧
      (set [string "a", string "bc"]).looseEq (set [string "bc", char 'a']) =
        (set [string "bc", char 'a']).looseEq (set [string "a", string "bc"]) := by
  refine ⟨by decide, (equality_symmetric ?_ ?_).1⟩
  · exact separated_of_texts (by decide) (by decide)
  · exact separated_of_texts (by decide) (by decide)

/-- A set with two members that equal one member of the other: the sets are equal from one side
alone. -/
theorem equality_asymmetric :
    (set [int 1, long 1]).looseEq (set [int 1, int 2]) = true ∧
      (set [int 1, int 2]).looseEq (set [int 1, long 1]) = false ∧
      (int 1).strictEq (long 1) = false ∧ (int 1).strictEq (int 2) = false := by
  decide

end Value

end ObjectQuery
