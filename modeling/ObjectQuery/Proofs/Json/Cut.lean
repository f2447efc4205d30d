import ObjectQuery.Json.Reader
import ObjectQuery.Proofs.Json.Shape

/-!
Trees that are nested too deep to be read whole, and what can be read out of them. A list or a
record is there exactly if its place is not too deep itself.
-/

namespace ObjectQuery.Json

mutual

/-- What is left of a tree when all that is nested too deep cannot be used. -/
def cut : Nat → Json → Json
  | depth, .array items => nested depth (.array (cutItems (depth - 1) items))
  | depth, .object members => nested depth (.object (cutMembers (depth - 1) members))
  | _, json => json
termination_by structural _ json => json

def cutItems : Nat → List Json → List Json
  | _, [] => []
  | depth, item :: rest => cut depth item :: cutItems depth rest
termination_by structural _ items => items

def cutMembers : Nat → List (String × Json) → List (String × Json)
  | _, [] => []
  | depth, (name, value) :: rest => (name, cut depth value) :: cutMembers depth rest
termination_by structural _ members => members

end

theorem cut_array (depth : ℕ) (items : List Json) :
    (Json.array items).cut depth = nested depth (.array (items.map (cut (depth - 1)))) := by
  have hitems : ∀ depth, cutItems depth items = items.map (cut depth) := by
    intro depth
    induction items with
    | nil => rfl
    | cons item rest ih => simp [cutItems, ih]
  rw [cut, hitems]

theorem cut_object (depth : ℕ) (members : List (String × Json)) :
    (Json.object members).cut depth =
      nested depth (.object (members.map fun member => (member.1, member.2.cut (depth - 1)))) := by
  have hmembers : ∀ depth,
      cutMembers depth members = members.map fun member => (member.1, member.2.cut depth) := by
    intro depth
    induction members with
    | nil => rfl
    | cons member rest ih => simp [cutMembers, ih]
  rw [cut, hmembers]

variable {json : Json} {items : List Json} {members : List (String × Json)} {depth : ℕ}

theorem nested_of_lt (h : 1 < depth) (json : Json) : nested depth json = json := by
  rw [nested, if_neg (by omega)]

theorem nested_of_le (h : depth ≤ 1) (json : Json) : nested depth json = .unreadable := by
  rw [nested, if_pos h]

theorem cut_eq_self (h : json.depth < depth) : json.cut depth = json := by
  induction json using induction_children generalizing depth with
  | step json ih =>
    cases json with
    | array items =>
      obtain ⟨hdepth, hitems⟩ := depth_array_lt_iff.mp h
      have hsame : items.map (cut (depth - 1)) = items :=
        (List.map_congr_left fun item hitem => ih item hitem (hitems item hitem)).trans
          (List.map_id' items)
      rw [cut_array, nested_of_lt hdepth, hsame]
    | object members =>
      obtain ⟨hdepth, hmembers⟩ := depth_object_lt_iff.mp h
      have hsame : members.map (fun member => (member.1, member.2.cut (depth - 1))) = members := by
        refine (List.map_congr_left fun member hmember => ?_).trans (List.map_id' members)
        rw [ih _ (List.mem_map_of_mem hmember) (hmembers member hmember)]
      rw [cut_object, nested_of_lt hdepth, hsame]
    | _ => rfl

theorem depth_lt_of_readable_cut (h : (json.cut depth).readable) (hdepth : 0 < depth) :
    json.depth < depth := by
  induction json using induction_children generalizing depth with
  | step json ih =>
    cases json with
    | array items =>
      rw [cut_array] at h
      rcases Nat.lt_or_ge 1 depth with hlt | hle
      · rw [nested_of_lt hlt, readable_array, List.all_map, List.all_eq_true] at h
        exact depth_array_lt_iff.mpr
          ⟨hlt, fun item hitem => ih item hitem (h item hitem) (by omega)⟩
      · rw [nested_of_le hle] at h
        cases h
    | object members =>
      rw [cut_object] at h
      rcases Nat.lt_or_ge 1 depth with hlt | hle
      · rw [nested_of_lt hlt, readable_object, List.all_map, List.all_eq_true] at h
        exact depth_object_lt_iff.mpr ⟨hlt, fun member hmember =>
          ih _ (List.mem_map_of_mem hmember) (h member hmember) (by omega)⟩
      · rw [nested_of_le hle] at h
        cases h
    | _ => exact hdepth

theorem depth_cut_of_item {n : ℕ} (h : ((Json.array items).canonical.cut depth).depth ≤ n)
    (hdepth : 1 < depth) {item : Json} (hitem : item ∈ items) :
    (item.canonical.cut (depth - 1)).depth < n := by
  rw [canonical_array, cut_array, nested_of_lt hdepth] at h
  refine (depth_lt_of_mem_children ?_).trans_le h
  exact List.mem_map_of_mem (List.mem_map_of_mem hitem)

theorem depth_cut_of_member (hnodup : (members.map (·.1)).Nodup) {n : ℕ}
    (h : ((Json.object members).canonical.cut depth).depth ≤ n) (hdepth : 1 < depth)
    {member : String × Json} (hmember : member ∈ members) :
    (member.2.canonical.cut (depth - 1)).depth < n := by
  rw [canonical_object, cut_object, nested_of_lt hdepth, List.map_map] at h
  refine (depth_lt_of_mem_children ?_).trans_le h
  rw [children, List.map_map]
  exact List.mem_map.mpr ⟨member, (sortMembers_perm hnodup).mem_iff.mpr hmember, rfl⟩

/-! ### Lists and records -/

theorem offers_items (items : List Json) (depth : ℕ) :
    Offers ((Json.array items).canonical.cut depth).items? (1 < depth)
      (· = items.map fun item => item.canonical.cut (depth - 1)) := by
  rw [canonical_array, cut_array, List.map_map]
  rcases Nat.lt_or_ge 1 depth with h | h
  · rw [nested_of_lt h]
    exact .here h rfl
  · rw [nested_of_le h]
    exact .gone (by omega)

theorem canonical_object_cut (members : List (String × Json)) (depth : ℕ) :
    (Json.object members).canonical.cut depth = nested depth (.object
      ((sortMembers members).map fun member =>
        (member.1, member.2.canonical.cut (depth - 1)))) := by
  rw [canonical_object, cut_object, List.map_map]
  rfl

theorem offers_members (members : List (String × Json)) (depth : ℕ) :
    Offers ((Json.object members).canonical.cut depth).members? (1 < depth)
      (· = (sortMembers members).map fun member =>
        (member.1, member.2.canonical.cut (depth - 1))) := by
  rw [canonical_object_cut]
  rcases Nat.lt_or_ge 1 depth with h | h
  · rw [nested_of_lt h]
    exact .here h rfl
  · rw [nested_of_le h]
    exact .gone (by omega)

theorem offers_record (hnodup : (members.map (·.1)).Nodup) (shape : List Field) (depth : ℕ) :
    Offers (((Json.object members).canonical.cut depth).record? shape) (1 < depth)
      (· = shape.map fun field =>
        (Bindings.get? members field.name).map fun json => json.canonical.cut (depth - 1)) := by
  rw [canonical_object_cut]
  rcases Nat.lt_or_ge 1 depth with h | h
  · rw [nested_of_lt h, record?_sortMembers hnodup fun json => json.canonical.cut (depth - 1)]
    exact .here h rfl
  · rw [nested_of_le h]
    exact .gone (by omega)

theorem offers_list {α β : Type} {read : Json → Option β} {write : α → Json} {items : List α}
    {c : α → Prop} {r : α → β → Prop}
    (h : ∀ item ∈ items, Offers (read ((write item).canonical.cut (depth - 1))) (c item) (r item)) :
    Offers (do (← ((Json.array (items.map write)).canonical.cut depth).items?).mapM read)
      (1 < depth ∧ ∀ item ∈ items, c item) (List.Forall₂ r items) := by
  refine .bind (offers_items _ _) fun found hfound => ?_
  rw [hfound, List.map_map]
  exact .mapM_map h

theorem offers_strings (texts : List String) (depth : ℕ) :
    Offers (do (← ((Json.array (texts.map Json.string)).canonical.cut depth).items?).mapM string?)
      (1 < depth) (· = texts) := by
  have hread : Offers
      (do (← ((Json.array (texts.map Json.string)).canonical.cut depth).items?).mapM string?)
      (1 < depth ∧ ∀ text ∈ texts, True) (List.Forall₂ (fun a b => b = a) texts) :=
    offers_list fun text _ => .here trivial rfl
  exact (hread.imp fun found hfound => eq_of_forall₂ hfound).congr (by simp)

theorem cut_ne_null (h : json ≠ .null) (depth : ℕ) : json.cut depth ≠ .null := by
  intro hnull
  cases json with
  | null => exact h rfl
  | array items =>
    rw [cut_array, nested] at hnull
    split at hnull <;> cases hnull
  | object members =>
    rw [cut_object, nested] at hnull
    split at hnull <;> cases hnull
  | _ => cases hnull

theorem canonical_ne_null (h : json ≠ .null) : json.canonical ≠ .null := by
  cases json with
  | null => exact absurd rfl h
  | number n => cases n <;> exact Json.noConfusion
  | _ => exact Json.noConfusion

theorem present?_cut (h : json ≠ .null) (depth : ℕ) :
    present? (some (json.canonical.cut depth)) = some (json.canonical.cut depth) := by
  unfold present?
  split
  · rename_i heq
    exact absurd (Option.some.inj heq) (cut_ne_null (canonical_ne_null h) depth)
  · rfl

theorem offers_optional {α β : Type} {read : Json → Option β} {write : α → Json} {item : Option α}
    {c : α → Prop} {r : α → β → Prop} (hnull : ∀ a ∈ item, write a ≠ .null)
    (h : ∀ a ∈ item, Offers (read ((write a).canonical.cut depth)) (c a) (r a)) :
    Offers (optional read (some (((item.map write).getD .null).canonical.cut depth)))
      (∀ a ∈ item, c a) (Option.Rel r item) := by
  cases item with
  | none => exact .here (by simp) .none
  | some a =>
    have hread : Offers (optional read (some ((write a).canonical.cut depth))) (c a)
        (Option.Rel r (some a)) := by
      rw [optional, present?_cut (hnull a rfl)]
      change Offers (some <$> read _) _ _
      rw [map_eq_pure_bind]
      exact (h a rfl).map fun b hb => Option.Rel.some hb
    exact hread.congr (by simp)

theorem depth_canonical_object_lt_iff (hnodup : (members.map (·.1)).Nodup) {n : ℕ} :
    (Json.object members).canonical.depth < n ↔
      1 < n ∧ ∀ member ∈ members, member.2.canonical.depth < n - 1 := by
  rw [canonical_object, depth_object_lt_iff, List.forall_mem_map]
  refine and_congr_right fun _ => ?_
  exact ⟨fun h member hmember => h member ((sortMembers_perm hnodup).mem_iff.mpr hmember),
    fun h member hmember => h member (mem_sortMembers hmember)⟩

theorem depth_canonical_array_lt_iff {n : ℕ} :
    (Json.array items).canonical.depth < n ↔ 1 < n ∧ ∀ item ∈ items,
      item.canonical.depth < n - 1 := by
  rw [canonical_array, depth_array_lt_iff, List.forall_mem_map]

theorem depth_strings_lt_iff {texts : List String} :
    (Json.array (texts.map Json.string)).canonical.depth < depth ↔ 1 < depth := by
  rw [depth_canonical_array_lt_iff, List.forall_mem_map]
  exact and_iff_left_of_imp fun h text _ => Nat.sub_pos_of_lt h

theorem depth_optional_lt_iff {α : Type} {write : α → Json} {item : Option α} (h : 0 < depth) :
    ((item.map write).getD .null).canonical.depth < depth ↔
      ∀ a ∈ item, (write a).canonical.depth < depth := by
  cases item with
  | none => exact iff_of_true h (by simp)
  | some a => simp

end ObjectQuery.Json
