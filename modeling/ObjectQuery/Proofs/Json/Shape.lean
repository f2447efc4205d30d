import Mathlib.Data.List.Forall2
import ObjectQuery.Proofs.Json.Tree

/-!
Lists and records that are read out of JSON trees. Main statement: a record with different names
gives its fields back, in whatever order they stand.
-/

namespace ObjectQuery

section Lists

variable {α β : Type} {f : α → Option β}

theorem mapM_eq_some_iff {items : List α} {found : List β} :
    items.mapM f = some found ↔ List.Forall₂ (fun a b => f a = some b) items found := by
  induction items generalizing found with
  | nil => simp [eq_comm]
  | cons item rest ih =>
    rw [List.mapM_cons, List.forall₂_cons_left_iff]
    constructor
    · intro h
      obtain ⟨first, hfirst, h⟩ := Option.bind_eq_some_iff.mp h
      obtain ⟨others, hothers, h⟩ := Option.bind_eq_some_iff.mp h
      exact ⟨first, others, hfirst, ih.mp hothers, (Option.some.inj h).symm⟩
    · rintro ⟨first, others, hfirst, hothers, rfl⟩
      simp [hfirst, ih.mpr hothers]

theorem forall_of_mapM {items : List α} {found : List β} {p : β → Prop}
    (h : items.mapM f = some found) (hp : ∀ a ∈ items, ∀ b, f a = some b → p b) :
    ∀ b ∈ found, p b := by
  rw [mapM_eq_some_iff] at h
  induction h with
  | nil => simp
  | cons hfirst _ ih =>
    rw [List.forall_mem_cons] at hp ⊢
    exact ⟨hp.1 _ hfirst, ih hp.2⟩

theorem mapM_map_eq_some {γ : Type} {g : γ → α} {items : List γ} {h : γ → β}
    (heach : ∀ item ∈ items, f (g item) = some (h item)) :
    (items.map g).mapM f = some (items.map h) := by
  rw [mapM_eq_some_iff, List.forall₂_map_left_iff, List.forall₂_map_right_iff,
    List.forall₂_same]
  exact heach

theorem eq_of_forall₂ {items found : List α} (h : List.Forall₂ (fun a b => b = a) items found) :
    found = items := by
  induction h with
  | nil => rfl
  | cons hfirst _ ih => rw [hfirst, ih]

theorem map_eq_map_of_forall₂ {r : α → α → Prop} {g : α → β} {items found : List α}
    (h : List.Forall₂ r items found) (hr : ∀ a b, r a b → g b = g a) :
    found.map g = items.map g := by
  induction h with
  | nil => rfl
  | cons hfirst _ ih => rw [List.map_cons, List.map_cons, hr _ _ hfirst, ih]

end Lists

theorem eq_of_rel {α : Type} {item found : Option α}
    (h : Option.Rel (fun a b => b = a) item found) :
    found = item := by
  cases h with
  | none => rfl
  | some h => rw [h]

theorem rel_imp {α β : Type} {r p : α → β → Prop} (hr : ∀ a b, r a b → p a b) {x : Option α}
    {y : Option β} (h : Option.Rel r x y) : Option.Rel p x y := by
  cases h with
  | none => exact .none
  | some h => exact .some (hr _ _ h)

/-- An option that is there exactly under a condition, and holds what is told. -/
structure Offers {α : Type} (x : Option α) (c : Prop) (p : α → Prop) : Prop where
  isSome_iff : x.isSome ↔ c
  holds : ∀ a, x = some a → p a

namespace Offers

variable {α β γ : Type} {x : Option α} {f : α → Option β} {c c' : Prop} {p p' : α → Prop}
  {q : β → Prop}

theorem here {a : α} (hc : c) (h : p a) : Offers (some a) c p :=
  ⟨by simp [hc], fun _ ha => Option.some.inj ha ▸ h⟩

theorem gone (hc : ¬c) : Offers none c p := ⟨by simp [hc], fun _ h => by cases h⟩

theorem pure {a : α} (h : p a) : Offers (some a) True p := here trivial h

theorem congr (h : Offers x c p) (hc : c ↔ c') : Offers x c' p := ⟨h.isSome_iff.trans hc, h.holds⟩

theorem imp (h : Offers x c p) (hp : ∀ a, p a → p' a) : Offers x c p' :=
  ⟨h.isSome_iff, fun a ha => hp a (h.holds a ha)⟩

theorem known (h : Offers x c p) : Offers x c fun a => c ∧ p a :=
  ⟨h.isSome_iff, fun a ha => ⟨h.isSome_iff.mp (Option.isSome_of_mem ha), h.holds a ha⟩⟩

theorem bind (hx : Offers x c p) (hf : ∀ a, p a → Offers (f a) c' q) :
    Offers (x >>= f) (c ∧ c') q := by
  cases x with
  | none => exact gone fun h => by cases hx.isSome_iff.mpr h.1
  | some a =>
    obtain ⟨hsome, hholds⟩ := hf a (hx.holds a rfl)
    have hc : c := hx.isSome_iff.mp rfl
    exact ⟨hsome.trans (and_iff_right hc).symm, hholds⟩

theorem map {f : α → β} (hx : Offers x c p) (hf : ∀ a, p a → q (f a)) :
    Offers (do return f (← x)) c q := by
  have hbind : Offers (do return f (← x)) (c ∧ True) q := bind hx fun a ha => pure (hf a ha)
  rwa [and_true] at hbind

theorem mapM_map {f : β → Option γ} {g : α → β} {items : List α} {c : α → Prop}
    {r : α → γ → Prop} (h : ∀ item ∈ items, Offers (f (g item)) (c item) (r item)) :
    Offers ((items.map g).mapM f) (∀ item ∈ items, c item) (List.Forall₂ r items) := by
  induction items with
  | nil => exact here (by simp) .nil
  | cons item rest ih =>
    rw [List.forall_mem_cons] at h
    rw [List.forall_mem_cons, List.map_cons, List.mapM_cons]
    exact bind h.1 fun first hfirst => map (ih h.2) fun others hothers =>
      List.Forall₂.cons hfirst hothers

end Offers

namespace Json

variable {members : List (String × Json)} {shape : List Field} {json : Json}
  {fields : List (Option Json)}

theorem length_filter_name_le_one {α : Type} {members : List (String × α)}
    (hnodup : (members.map (·.1)).Nodup) (name : String) :
    (members.filter (·.1 == name)).length ≤ 1 := by
  induction members with
  | nil => simp
  | cons first rest ih =>
    obtain ⟨hfirst, hrest⟩ := List.nodup_cons.mp hnodup
    rw [List.filter_cons]
    split
    · rename_i heq
      have hnone : rest.filter (·.1 == name) = [] := by
        refine List.filter_eq_nil_iff.mpr fun member hmember hname => hfirst ?_
        rw [beq_iff_eq] at heq hname
        exact List.mem_map.mpr ⟨member, hmember, hname.trans heq.symm⟩
      simp [hnone]
    · exact ih hrest

theorem record?_sortMembers (hnodup : (members.map (·.1)).Nodup) (f : Json → Json)
    (shape : List Field) :
    (Json.object ((sortMembers members).map fun member => (member.1, f member.2))).record? shape =
      some (shape.map fun field => (Bindings.get? members field.name).map f) := by
  have hperm := sortMembers_perm hnodup
  have hsorted := (namesAscend_sortMembers members).nodup
  have hnames : (((sortMembers members).map fun member =>
      (member.1, f member.2)).map (·.1)).Nodup := by
    rwa [List.map_map]
  rw [record?, if_neg]
  · refine congrArg some (List.map_congr_left fun field _ => ?_)
    rw [Bindings.get?_map, Bindings.get?_perm hperm hsorted]
  · rw [List.any_eq_true]
    rintro ⟨field, -, h⟩
    have := length_filter_name_le_one hnames field.name
    rw [decide_eq_true_eq] at h
    omega

theorem mem_children_of_record? (h : json.record? shape = some fields) {field : Json}
    (hfield : some field ∈ fields) : field ∈ json.children := by
  cases json with
  | array items =>
    simp only [record?] at h
    split at h
    · obtain rfl := Option.some.inj h
      rcases List.mem_append.mp hfield with hmem | hmem
      · obtain ⟨item, hitem, heq⟩ := List.mem_map.mp hmem
        obtain rfl := Option.some.inj heq
        exact hitem
      · obtain ⟨item, -, heq⟩ := List.mem_map.mp hmem
        cases heq
    · cases h
  | object members =>
    simp only [record?] at h
    split at h
    · cases h
    · obtain rfl := Option.some.inj h
      obtain ⟨field', -, heq⟩ := List.mem_map.mp hfield
      exact List.mem_map_of_mem (Bindings.mem_of_get?_eq_some heq)
  | _ => cases h

theorem of_withDefault {α : Type} {read : Json → Option α} {otherwise a : α} {field : Option Json}
    (h : withDefault read otherwise field = some a) :
    a = otherwise ∨ ∃ json ∈ field, read json = some a := by
  cases field with
  | none => exact .inl (Option.some.inj h).symm
  | some json => exact .inr ⟨json, rfl, h⟩

theorem of_optional {α : Type} {read : Json → Option α} {found : Option α} {field : Option Json}
    (h : Json.optional read field = some found) {a : α} (ha : a ∈ found) :
    ∃ json ∈ field, read json = some a := by
  unfold Json.optional present? at h
  obtain rfl : found = some a := ha
  split at h
  · rename_i json hjson
    split at hjson
    · cases hjson
    · obtain ⟨b, hb, hsome⟩ := Option.map_eq_some_iff.mp h
      obtain rfl := Option.some.inj hsome
      exact ⟨json, hjson, hb⟩
  · cases h

end Json

end ObjectQuery
