import ObjectQuery.Evaluation.Aggregate
import ObjectQuery.Proofs.Value.Strict

/-!
Distinct values. Main statement: they are the first ones of the classes of strictly equal values,
and apart from which one of its class each is they do not depend on the order of the values.
-/

namespace ObjectQuery

section

variable {α β : Type} {r : α → α → Bool}

/-- Keeps every item that no kept one is related to. -/
def firstsBy (r : α → α → Bool) (items : List α) : List α :=
  items.foldl (fun kept item => if kept.any (r · item) then kept else kept ++ [item]) []

theorem firstsBy_append_singleton (r : α → α → Bool) (items : List α) (item : α) :
    firstsBy r (items ++ [item]) =
      if (firstsBy r items).any (r · item) then firstsBy r items
      else firstsBy r items ++ [item] := by
  rw [firstsBy, List.foldl_concat]
  rfl

theorem firstsBy_cons (r : α → α → Bool) (first : α) (items : List α) :
    firstsBy r (first :: items) = first :: firstsBy r (items.filter fun item => !r first item) := by
  have hfold : ∀ kept : List α,
      items.foldl (fun kept item => if kept.any (r · item) then kept else kept ++ [item])
          (first :: kept) =
        first :: (items.filter fun item => !r first item).foldl
          (fun kept item => if kept.any (r · item) then kept else kept ++ [item]) kept := by
    induction items with
    | nil => exact fun _ => rfl
    | cons item rest ih =>
      intro kept
      rw [List.foldl_cons, List.any_cons, List.filter_cons]
      cases r first item with
      | true => exact ih kept
      | false =>
        rw [Bool.false_or, Bool.not_false, if_pos rfl, List.foldl_cons, ← ih]
        split <;> rfl
  exact hfold []

theorem firstsBy_map (r : β → β → Bool) (f : α → β) (items : List α) :
    firstsBy r (items.map f) = (firstsBy (fun a b => r (f a) (f b)) items).map f := by
  induction items using List.reverseRecOn with
  | nil => rfl
  | append_singleton items item ih =>
    rw [List.map_append, List.map_singleton, firstsBy_append_singleton, firstsBy_append_singleton,
      ih, List.any_map]
    simp only [Function.comp_def]
    split
    · rfl
    · rw [List.map_append, List.map_singleton]

theorem firstsBy_subset (r : α → α → Bool) (items : List α) : firstsBy r items ⊆ items := by
  induction items using List.reverseRecOn with
  | nil => exact List.Subset.refl _
  | append_singleton items item ih =>
    rw [firstsBy_append_singleton]
    split
    · exact List.subset_append_of_subset_left _ ih
    · exact List.append_subset.mpr ⟨List.subset_append_of_subset_left _ ih,
        List.subset_append_right _ _⟩

theorem firstsBy_congr {r' : α → α → Bool} {items : List α}
    (h : items.Pairwise fun a b => r a b = r' a b) : firstsBy r items = firstsBy r' items := by
  induction items using List.reverseRecOn with
  | nil => rfl
  | append_singleton items item ih =>
    rw [List.pairwise_append] at h
    have hany : (firstsBy r' items).any (r · item) = (firstsBy r' items).any (r' · item) := by
      rw [Bool.eq_iff_iff, List.any_eq_true, List.any_eq_true]
      refine exists_congr fun a => and_congr_right fun ha => ?_
      rw [h.2.2 a (firstsBy_subset r' items ha) item (by simp)]
    rw [firstsBy_append_singleton, firstsBy_append_singleton, ih h.1, hany]

theorem any_firstsBy {items : List α} {item : α}
    (htrans : ∀ a ∈ items, ∀ b ∈ items, r a b → r b item → r a item) :
    (firstsBy r items).any (r · item) = items.any (r · item) := by
  induction items using List.reverseRecOn with
  | nil => rfl
  | append_singleton items last ih =>
    have hinit := ih fun a ha b hb => htrans a (by simp [ha]) b (by simp [hb])
    rw [firstsBy_append_singleton, List.any_append, List.any_cons, List.any_nil, Bool.or_false]
    split
    · rename_i hlast
      rw [hinit]
      obtain ⟨a, ha, hlast⟩ := List.any_eq_true.mp hlast
      have ha := firstsBy_subset r items ha
      cases hitem : r last item with
      | false => rw [Bool.or_false]
      | true =>
        have hfirst := htrans a (by simp [ha]) last (by simp) hlast hitem
        rw [Bool.or_true]
        exact List.any_eq_true.mpr ⟨a, ha, hfirst⟩
    · rw [List.any_append, List.any_cons, List.any_nil, Bool.or_false, hinit]

theorem firstsBy_filter_perm {items items' : List α} {g : α → β} (hperm : items.Perm items')
    (hsymm : ∀ a ∈ items, ∀ b ∈ items, r a b = r b a)
    (htrans : ∀ a ∈ items, ∀ b ∈ items, ∀ c ∈ items, r a b → r b c → r a c)
    (hg : ∀ a ∈ items, ∀ b ∈ items, r a b → g a = g b) (p : α → Bool) :
    ((firstsBy r (items.filter p)).map g).Perm ((firstsBy r (items'.filter p)).map g) := by
  induction hperm generalizing p with
  | nil => exact .nil
  | @cons first rest rest' _ ih =>
    have ih := ih (fun a ha b hb => hsymm a (by simp [ha]) b (by simp [hb]))
      (fun a ha b hb c hc => htrans a (by simp [ha]) b (by simp [hb]) c (by simp [hc]))
      fun a ha b hb => hg a (by simp [ha]) b (by simp [hb])
    rw [List.filter_cons, List.filter_cons]
    split
    · rw [firstsBy_cons, firstsBy_cons, List.filter_filter, List.filter_filter]
      exact (ih _).cons _
    · exact ih p
  | swap first second rest =>
    cases hp : p first <;> cases hp' : p second <;> simp only [List.filter_cons, hp, hp',
      Bool.false_eq_true, if_true, if_false] <;> try exact .refl _
    rw [firstsBy_cons, firstsBy_cons, List.filter_cons, List.filter_cons,
      hsymm second (by simp) first (by simp)]
    cases hr : r first second with
    | true =>
      -- Either of the two stands for their class, and both leave out the same others.
      have hsame : (rest.filter p).filter (fun a => !r second a) =
          (rest.filter p).filter fun a => !r first a := by
        refine List.filter_congr fun a ha => ?_
        have ha := (List.mem_filter.mp ha).1
        rw [Bool.not_inj_iff, Bool.eq_iff_iff]
        constructor
        · exact htrans first (by simp) second (by simp) a (by simp [ha]) hr
        · rw [hsymm first (by simp) second (by simp)] at hr
          exact htrans second (by simp) first (by simp) a (by simp [ha]) hr
      simp only [Bool.not_true, Bool.false_eq_true, if_false, List.map_cons]
      rw [hsame, hg first (by simp) second (by simp) hr]
    | false =>
      have hothers (others : List α) :
          (others.filter fun a => !r second a).filter (fun a => !r first a) =
            (others.filter fun a => !r first a).filter fun a => !r second a := by
        rw [List.filter_filter, List.filter_filter]
        exact List.filter_congr fun a _ => Bool.and_comm _ _
      simp only [Bool.not_false, if_true]
      rw [firstsBy_cons, firstsBy_cons, hothers]
      exact .swap _ _ _
  | trans hfirst _ ih ih' =>
    have hmem {a : α} := hfirst.mem_iff (a := a)
    refine (ih hsymm htrans hg p).trans (ih' ?_ ?_ ?_ p)
    · exact fun a ha b hb => hsymm a (hmem.mpr ha) b (hmem.mpr hb)
    · exact fun a ha b hb c hc => htrans a (hmem.mpr ha) b (hmem.mpr hb) c (hmem.mpr hc)
    · exact fun a ha b hb => hg a (hmem.mpr ha) b (hmem.mpr hb)

/-- In another order other items stand for their classes, but the classes are the same. -/
theorem firstsBy_perm {items items' : List α} {g : α → β} (hperm : items.Perm items')
    (hsymm : ∀ a ∈ items, ∀ b ∈ items, r a b = r b a)
    (htrans : ∀ a ∈ items, ∀ b ∈ items, ∀ c ∈ items, r a b → r b c → r a c)
    (hg : ∀ a ∈ items, ∀ b ∈ items, r a b → g a = g b) :
    ((firstsBy r items).map g).Perm ((firstsBy r items').map g) := by
  simpa using firstsBy_filter_perm hperm hsymm htrans hg fun _ => true

end

/-! ### Distinct values -/

/-- The values that are strictly equal to none before them. -/
def firstValues (values : List Value) : List Value :=
  (values.zipIdx.filter fun (value, place) =>
    !(values.take place).any fun earlier => earlier.strictEq value).map (·.1)

theorem firstValues_append_singleton (values : List Value) (value : Value) :
    firstValues (values ++ [value]) =
      firstValues values ++ if values.any (·.strictEq value) then [] else [value] := by
  have hinit : (values.zipIdx.filter fun (value', place) =>
      !((values ++ [value]).take place).any fun earlier => earlier.strictEq value') =
      values.zipIdx.filter fun (value', place) =>
        !(values.take place).any fun earlier => earlier.strictEq value' := by
    refine List.filter_congr fun ⟨value', place⟩ h => ?_
    have hplace : place < values.length := (List.mem_zipIdx' h).1
    simp only [List.take_append_of_le_length hplace.le]
  rw [firstValues, List.zipIdx_append, List.filter_append, List.map_append, hinit, firstValues]
  congr 1
  cases h : values.any (·.strictEq value) <;> simp [h]

/-- The distinct values are the first ones of the classes of strictly equal values. -/
theorem distinctValues_eq_firstValues {values : List Value} (h : Value.Coherent values) :
    distinctValues values = firstValues values := by
  obtain ⟨kinds, hkinds⟩ := h
  change firstsBy Value.strictEq values = _
  induction values using List.reverseRecOn with
  | nil => rfl
  | append_singleton values value ih =>
    have hvalue := hkinds value (by simp)
    have hvalues : ∀ v ∈ values, v.Described kinds := fun v hv => hkinds v (by simp [hv])
    have hany : (firstsBy Value.strictEq values).any (·.strictEq value) =
        values.any (·.strictEq value) :=
      any_firstsBy fun a ha b hb => Value.strictEq_trans (hvalues a ha) (hvalues b hb) hvalue
    rw [firstsBy_append_singleton, firstValues_append_singleton, hany, ih hvalues]
    split
    · rw [List.append_nil]
    · rfl

end ObjectQuery
