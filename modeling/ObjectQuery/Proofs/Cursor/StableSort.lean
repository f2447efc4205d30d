import Mathlib.Data.List.Basic
import ObjectQuery.Cursor.SortKey

/-!
Sorting by insertion is the stable sort: elements stand in order, and those that tie stand as
before. No other list has both.
-/

namespace ObjectQuery.SortKey

variable {α β : Type} {order : α → α → Ordering}

/-- Whether an element stands in the same place as a given one. -/
def ties (order : α → α → Ordering) (z x : α) : Bool := order z x == .eq

section Insertion

variable {less : α → α → Bool}

theorem insertBack_perm (x : α) (sorted : List α) :
    (insertBack less x sorted).Perm (x :: sorted) := by
  induction sorted with
  | nil => exact List.Perm.refl _
  | cons y rest ih =>
    rw [insertBack]
    split
    · exact (ih.cons y).trans (List.Perm.swap x y rest)
    · exact List.Perm.refl _

theorem sortBy_eq_foldr (xs : List α) :
    sortBy less xs = (xs.reverse.foldr (insertBack less) []).reverse := by
  rw [sortBy, List.foldl_eq_foldr_reverse]

theorem sortBy_perm (xs : List α) : (sortBy less xs).Perm xs := by
  have hfoldr : ∀ ys : List α, (ys.foldr (insertBack less) []).Perm ys := by
    intro ys
    induction ys with
    | nil => exact List.Perm.refl _
    | cons y rest ih => exact (insertBack_perm y _).trans (ih.cons y)
  rw [sortBy_eq_foldr]
  exact (List.reverse_perm _).trans ((hfoldr _).trans (List.reverse_perm xs))

theorem map_insertBack {less' : β → β → Bool} {f : α → β}
    (hless : ∀ a b, less a b = less' (f a) (f b)) (x : α) (sorted : List α) :
    (insertBack less x sorted).map f = insertBack less' (f x) (sorted.map f) := by
  induction sorted with
  | nil => rfl
  | cons y rest ih =>
    rw [insertBack, List.map_cons, insertBack, ← hless]
    split
    · rw [List.map_cons, ih]
    · rfl

theorem map_foldr_insertBack {less' : β → β → Bool} {f : α → β}
    (hless : ∀ a b, less a b = less' (f a) (f b)) (xs : List α) :
    (xs.foldr (insertBack less) []).map f = (xs.map f).foldr (insertBack less') [] := by
  induction xs with
  | nil => rfl
  | cons x rest ih => rw [List.foldr_cons, map_insertBack hless, ih, List.map_cons, List.foldr_cons]

theorem map_sortBy {less' : β → β → Bool} {f : α → β} (hless : ∀ a b, less a b = less' (f a) (f b))
    (xs : List α) : (sortBy less xs).map f = sortBy less' (xs.map f) := by
  rw [sortBy_eq_foldr, sortBy_eq_foldr, List.map_reverse, map_foldr_insertBack hless,
    List.map_reverse]

theorem sorted_perm (keys : List SortKey) (rows : List Keyed) :
    (sorted keys rows).Perm (rows.map Keyed.candidate) :=
  (sortBy_perm rows).map Keyed.candidate

end Insertion

section Preorder

variable [Std.TransCmp order]

theorem isLE_total (a b : α) : (order a b).isLE || (order b a).isLE := by
  have hswap : (order b a).isLE = (order a b).isGE := Std.OrientedCmp.isGE_eq_isLE.symm
  rw [hswap]
  cases order a b <;> rfl

theorem ties_refl (x : α) : ties order x x = true := by
  simp [ties, Std.ReflCmp.compare_self]

/-- Sorted lists in which the elements that tie stand in the same order are equal. -/
theorem eq_of_filter_ties_eq {xs ys : List α} (hxs : xs.Pairwise (order · · |>.isLE))
    (hys : ys.Pairwise (order · · |>.isLE))
    (h : ∀ z, xs.filter (ties order z) = ys.filter (ties order z)) : xs = ys := by
  induction xs generalizing ys with
  | nil =>
    cases ys with
    | nil => rfl
    | cons y ys => simpa [ties_refl] using h y
  | cons x xs ih =>
    cases ys with
    | nil => simpa [ties_refl] using h x
    | cons y ys =>
      have hmem : ∀ z, z ∈ x :: xs ↔ z ∈ y :: ys := by
        intro z
        have hz := congrArg (z ∈ ·) (h z)
        simpa [List.mem_filter, ties_refl] using hz
      have hxy : (order x y).isLE := by
        rcases List.mem_cons.mp ((hmem y).mpr List.mem_cons_self) with rfl | hy
        · exact Std.ReflCmp.isLE_rfl
        · exact (List.pairwise_cons.mp hxs).1 y hy
      have hyx : (order y x).isLE := by
        rcases List.mem_cons.mp ((hmem x).mp List.mem_cons_self) with rfl | hx
        · exact Std.ReflCmp.isLE_rfl
        · exact (List.pairwise_cons.mp hys).1 x hx
      have htie : ties order x y = true := by
        simpa [ties] using Std.OrientedCmp.isLE_antisymm hxy hyx
      -- The heads tie, so each is the first of the elements that tie with it, and those are the
      -- same.
      have hhead := h x
      rw [List.filter_cons_of_pos (ties_refl x), List.filter_cons_of_pos htie] at hhead
      obtain ⟨rfl, -⟩ := List.cons.inj hhead
      rw [ih hxs.of_cons hys.of_cons fun z => ?_]
      have hz := h z
      by_cases hzx : ties order z x = true
      · rw [List.filter_cons_of_pos hzx, List.filter_cons_of_pos hzx] at hz
        exact (List.cons.inj hz).2
      · rwa [List.filter_cons_of_neg hzx, List.filter_cons_of_neg hzx] at hz

theorem filter_mergeSort (z : α) (xs : List α) :
    (xs.mergeSort (order · · |>.isLE)).filter (ties order z) = xs.filter (ties order z) := by
  have hpairwise : (xs.filter (ties order z)).Pairwise (order · · |>.isLE) := by
    refine List.Pairwise.imp_of_mem ?_
      (List.pairwise_of_forall (R := fun _ _ => True) fun _ _ => trivial)
    intro a b ha hb _
    have hza : order z a = .eq := by simpa [ties] using (List.mem_filter.mp ha).2
    have hzb : order z b = .eq := by simpa [ties] using (List.mem_filter.mp hb).2
    exact Std.TransCmp.isLE_trans (Ordering.isLE_of_eq_eq (Std.OrientedCmp.eq_symm hza))
      (Ordering.isLE_of_eq_eq hzb)
  have hsublist := List.sublist_mergeSort (fun a b c => Std.TransCmp.isLE_trans) isLE_total
    hpairwise List.filter_sublist
  have hfilter := hsublist.filter (ties order z)
  rw [List.filter_filter] at hfilter
  simp only [Bool.and_self] at hfilter
  exact (hfilter.eq_of_length ((List.mergeSort_perm xs _).filter _).length_eq.symm).symm

theorem filter_insertBack (z x : α) (sorted : List α) :
    (insertBack (order · · == .lt) x sorted).filter (ties order z) =
      (x :: sorted).filter (ties order z) := by
  induction sorted with
  | nil => rfl
  | cons y rest ih =>
    rw [insertBack]
    split
    · rename_i hless
      have hless : order x y = .lt := by simpa using hless
      rw [List.filter_cons, ih]
      by_cases hy : ties order z y = true
      · have hx : ¬ties order z x = true := by
          intro hx
          have hzx : order z x = .eq := by simpa [ties] using hx
          have hzy : order z y = .eq := by simpa [ties] using hy
          rw [Std.TransCmp.lt_of_eq_of_lt hzx hless] at hzy
          cases hzy
        rw [if_pos hy, List.filter_cons_of_neg hx, List.filter_cons_of_neg hx,
          List.filter_cons_of_pos hy]
      · rw [if_neg hy, List.filter_cons, List.filter_cons, List.filter_cons_of_neg hy]
    · rfl

theorem pairwise_insertBack (x : α) {sorted : List α}
    (h : sorted.Pairwise fun a b => (order b a).isLE) :
    (insertBack (order · · == .lt) x sorted).Pairwise fun a b => (order b a).isLE := by
  induction sorted with
  | nil => exact List.pairwise_singleton _ _
  | cons y rest ih =>
    obtain ⟨hy, hrest⟩ := List.pairwise_cons.mp h
    rw [insertBack]
    split
    · rename_i hless
      have hless : order x y = .lt := by simpa using hless
      refine List.pairwise_cons.mpr ⟨fun a ha => ?_, ih hrest⟩
      rcases List.mem_cons.mp ((insertBack_perm x rest).subset ha) with rfl | ha
      · exact Ordering.isLE_of_eq_lt hless
      · exact hy a ha
    · rename_i hless
      have hyx : (order y x).isLE := by
        rw [← Std.OrientedCmp.isGE_eq_isLE]
        cases hxy : order x y <;> simp_all
      refine List.pairwise_cons.mpr ⟨fun a ha => ?_, h⟩
      rcases List.mem_cons.mp ha with rfl | ha
      · exact hyx
      · exact Std.TransCmp.isLE_trans (hy a ha) hyx

theorem sortBy_eq_mergeSort (xs : List α) :
    sortBy (order · · == .lt) xs = xs.mergeSort (order · · |>.isLE) := by
  have hpairwise : ∀ ys : List α, (ys.foldr (insertBack (order · · == .lt)) []).Pairwise
      fun a b => (order b a).isLE := by
    intro ys
    induction ys with
    | nil => exact List.Pairwise.nil
    | cons y rest ih => exact pairwise_insertBack y ih
  have hfilter : ∀ z, ∀ ys : List α,
      (ys.foldr (insertBack (order · · == .lt)) []).filter (ties order z) =
        ys.filter (ties order z) := by
    intro z ys
    induction ys with
    | nil => rfl
    | cons y rest ih =>
      rw [List.foldr_cons, filter_insertBack, List.filter_cons, ih, List.filter_cons]
  rw [sortBy_eq_foldr]
  refine eq_of_filter_ties_eq (List.pairwise_reverse.mpr (hpairwise xs.reverse))
    (List.pairwise_mergeSort (fun a b c => Std.TransCmp.isLE_trans) isLE_total xs) fun z => ?_
  rw [filter_mergeSort, List.filter_reverse, hfilter, List.filter_reverse, List.reverse_reverse]

end Preorder

theorem transCmp_of_mem {xs : List α} (hswap : ∀ a ∈ xs, ∀ b ∈ xs, order a b = (order b a).swap)
    (htrans : ∀ a ∈ xs, ∀ b ∈ xs, ∀ c ∈ xs,
      (order a b).isLE → (order b c).isLE → (order a c).isLE) :
    Std.TransCmp fun a b : {x // x ∈ xs} => order a.val b.val where
  eq_swap := fun {a b} => hswap a.val a.property b.val b.property
  isLE_trans := fun {a b c} => htrans a.val a.property b.val b.property c.val c.property

theorem sortBy_eq_mergeSort_of_mem (order : α → α → Ordering) (xs : List α)
    (h : Std.TransCmp fun a b : {x // x ∈ xs} => order a.val b.val) :
    sortBy (order · · == .lt) xs = xs.mergeSort (order · · |>.isLE) := by
  have hsort := @map_sortBy {x // x ∈ xs} α (fun a b => order a.val b.val == .lt)
    (order · · == .lt) Subtype.val (fun _ _ => rfl) xs.attach
  have hmerge := @List.map_mergeSort {x // x ∈ xs} α (fun a b => (order a.val b.val).isLE)
    (order · · |>.isLE) Subtype.val xs.attach (fun _ _ _ _ => rfl)
  rw [List.attach_map_subtype_val] at hsort hmerge
  rw [← hsort, sortBy_eq_mergeSort, hmerge]

end ObjectQuery.SortKey
