import ObjectQuery.Json.Shape
import ObjectQuery.Proofs.Json.Members
import ObjectQuery.Proofs.Number.Conversion

/-!
The nodes of a JSON tree, and what the canonical form of a tree keeps of them.
-/

namespace ObjectQuery

/-- The number that the canonical form of a tree has in this one's place. -/
def JsonNumber.widened : JsonNumber → JsonNumber
  | .single x => .double x.convert
  | n => n

@[simp] theorem JsonNumber.widened_widened (n : JsonNumber) : n.widened.widened = n.widened := by
  cases n <;> rfl

namespace Json

/-- The trees right below a node. -/
def children : Json → List Json
  | .array items => items
  | .object members => members.map (·.2)
  | _ => []

theorem sizeOf_lt_of_mem_children {json child : Json} (h : child ∈ json.children) :
    sizeOf child < sizeOf json := by
  cases json with
  | array items =>
    have hlt : sizeOf child < sizeOf items := List.sizeOf_lt_of_mem h
    simp only [array.sizeOf_spec]
    omega
  | object members =>
    obtain ⟨member, hmember, rfl⟩ := List.mem_map.mp h
    have := List.sizeOf_lt_of_mem hmember
    rcases member with ⟨name, value⟩
    simp only [Prod.mk.sizeOf_spec, object.sizeOf_spec] at *
    omega
  | _ => simp [children] at h

theorem induction_children {motive : Json → Prop}
    (step : ∀ json, (∀ child ∈ json.children, motive child) → motive json) (json : Json) :
    motive json :=
  step json fun child hchild =>
    have := sizeOf_lt_of_mem_children hchild
    induction_children step child
termination_by json

/-- All nodes of a tree are as told. -/
inductive All (p : Json → Prop) : Json → Prop where
  | node {json : Json} (self : p json) (below : ∀ child ∈ json.children, All p child) : All p json

namespace All

variable {p q : Json → Prop} {json : Json}

theorem self (h : json.All p) : p json := by
  obtain ⟨hself, _⟩ := h
  exact hself

theorem child (h : json.All p) : ∀ child ∈ json.children, child.All p := by
  obtain ⟨_, hbelow⟩ := h
  exact hbelow

theorem imp (hpq : ∀ json, p json → q json) (h : json.All p) : json.All q := by
  induction h with
  | node hself _ ih => exact ⟨hpq _ hself, ih⟩

theorem of_leaf (hself : p json) (hleaf : json.children = []) : json.All p :=
  ⟨hself, by simp [hleaf]⟩

theorem and (hp : json.All p) (hq : json.All q) : json.All fun node => p node ∧ q node := by
  induction hp with
  | node hself _ ih =>
    exact ⟨⟨hself, hq.self⟩, fun child hchild => ih child hchild (hq.child child hchild)⟩

end All

variable {p : Json → Prop}

theorem all_iff (json : Json) : json.All p ↔ p json ∧ ∀ child ∈ json.children, child.All p :=
  ⟨fun h => ⟨h.self, h.child⟩, fun h => ⟨h.1, h.2⟩⟩

theorem all_array {items : List Json} :
    (Json.array items).All p ↔ p (.array items) ∧ ∀ item ∈ items, item.All p :=
  all_iff _

theorem all_object {members : List (String × Json)} :
    (Json.object members).All p ↔ p (.object members) ∧ ∀ member ∈ members, member.2.All p := by
  rw [all_iff, children, List.forall_mem_map]

/-! ### Depth -/

theorem depth_le_itemsDepth {items : List Json} {item : Json} (h : item ∈ items) :
    item.depth ≤ itemsDepth items := by
  induction items with
  | nil => cases h
  | cons first rest ih =>
    simp only [itemsDepth]
    rcases List.mem_cons.mp h with rfl | h
    · omega
    · have := ih h
      omega

theorem depth_le_membersDepth {members : List (String × Json)} {member : String × Json}
    (h : member ∈ members) : member.2.depth ≤ membersDepth members := by
  induction members with
  | nil => cases h
  | cons first rest ih =>
    simp only [membersDepth]
    rcases List.mem_cons.mp h with rfl | h
    · omega
    · have := ih h
      omega

theorem depth_lt_of_mem_children {json child : Json} (h : child ∈ json.children) :
    child.depth < json.depth := by
  cases json with
  | array items => exact Nat.lt_succ_of_le (depth_le_itemsDepth h)
  | object members =>
    obtain ⟨member, hmember, rfl⟩ := List.mem_map.mp h
    exact Nat.lt_succ_of_le (depth_le_membersDepth hmember)
  | _ => simp [children] at h

theorem itemsDepth_lt_iff {items : List Json} {n : ℕ} (hn : 0 < n) :
    itemsDepth items < n ↔ ∀ item ∈ items, item.depth < n := by
  induction items with
  | nil => simpa [itemsDepth] using hn
  | cons first rest ih => rw [itemsDepth, max_lt_iff, ih, List.forall_mem_cons]

theorem membersDepth_eq (members : List (String × Json)) :
    membersDepth members = itemsDepth (members.map (·.2)) := by
  induction members with
  | nil => rfl
  | cons first rest ih => rw [membersDepth, ih, List.map_cons, itemsDepth]

theorem depth_array_lt_iff {items : List Json} {n : ℕ} :
    (Json.array items).depth < n ↔ 1 < n ∧ ∀ item ∈ items, item.depth < n - 1 := by
  rw [depth]
  rcases Nat.lt_or_ge 1 n with hn | hn
  · rw [← itemsDepth_lt_iff (by omega)]
    omega
  · omega

theorem depth_object_lt_iff {members : List (String × Json)} {n : ℕ} :
    (Json.object members).depth < n ↔ 1 < n ∧ ∀ member ∈ members, member.2.depth < n - 1 := by
  have h : (Json.array (members.map (·.2))).depth < n ↔ _ := depth_array_lt_iff
  rwa [depth, ← membersDepth_eq, List.forall_mem_map] at h

/-! ### The canonical form -/

@[simp] theorem canonical_array (items : List Json) :
    (Json.array items).canonical = .array (items.map canonical) := by
  simp only [canonical, array.injEq]
  induction items with
  | nil => rfl
  | cons item rest ih => simp [canonicalItems, ih]

theorem canonicalMembers_eq_map (members : List (String × Json)) :
    canonicalMembers members = members.map fun member => (member.1, member.2.canonical) := by
  induction members with
  | nil => rfl
  | cons member rest ih => simp [canonicalMembers, ih]

theorem canonical_object (members : List (String × Json)) :
    (Json.object members).canonical =
      .object ((sortMembers members).map fun member => (member.1, member.2.canonical)) := by
  rw [canonical, canonicalMembers_eq_map, sortMembers_map]

@[simp] theorem canonical_number (n : JsonNumber) :
    (Json.number n).canonical = .number n.widened := by
  cases n <;> rfl

@[simp] theorem canonical_canonical (json : Json) : json.canonical.canonical = json.canonical := by
  induction json using induction_children with
  | step json ih =>
    cases json with
    | number n => simp
    | array items =>
      simp only [canonical_array, List.map_map, array.injEq]
      exact List.map_congr_left ih
    | object members =>
      simp only [children, List.forall_mem_map] at ih
      rw [canonical_object, canonical_object, sortMembers_map, sortMembers_sortMembers,
        List.map_map]
      refine congrArg Json.object (List.map_congr_left fun member hmember => ?_)
      exact congrArg (member.1, ·) (ih member (mem_sortMembers hmember))
    | _ => rfl

/-! ### Numbers in a tree -/

/-- A node that can be used, and if it is a number is one as told. -/
def Legible (p : JsonNumber → Prop) : Json → Prop
  | .number n => p n
  | .unreadable => False
  | _ => True

theorem readable_array (items : List Json) :
    (Json.array items).readable = items.all readable := by
  rw [readable]
  induction items with
  | nil => rfl
  | cons item rest ih => rw [readableItems, List.all_cons, ih]

theorem readable_object (members : List (String × Json)) :
    (Json.object members).readable = members.all fun member => member.2.readable := by
  rw [readable]
  induction members with
  | nil => rfl
  | cons member rest ih => rw [readableMembers, List.all_cons, ih]

theorem legible_array {p : JsonNumber → Prop} {items : List Json} :
    (Json.array items).All (Legible p) ↔ ∀ item ∈ items, item.All (Legible p) :=
  all_array.trans (and_iff_right trivial)

theorem legible_object {p : JsonNumber → Prop} {members : List (String × Json)} :
    (Json.object members).All (Legible p) ↔ ∀ member ∈ members, member.2.All (Legible p) :=
  all_object.trans (and_iff_right trivial)

theorem legible_of_leaf {p : JsonNumber → Prop} {json : Json} (hself : Legible p json)
    (hleaf : json.children = []) : json.All (Legible p) :=
  .of_leaf hself hleaf

theorem legible_optional {α : Type} {p : JsonNumber → Prop} {write : α → Json} {item : Option α}
    (h : ∀ a ∈ item, (write a).All (Legible p)) :
    ((item.map write).getD .null).All (Legible p) := by
  cases item with
  | none => exact legible_of_leaf trivial rfl
  | some a => exact h a rfl

theorem All.legible {p : JsonNumber → Prop} {json : Json}
    (h : json.All fun node => ∀ n, node = .number n → p n) (hreadable : json.readable) :
    json.All (Legible p) := by
  induction h with
  | @node json hself _ ih =>
    cases json with
    | array items =>
      rw [readable_array, List.all_eq_true] at hreadable
      exact ⟨trivial, fun item hitem => ih item hitem (hreadable item hitem)⟩
    | object members =>
      rw [readable_object, List.all_eq_true] at hreadable
      refine all_object.mpr ⟨trivial, fun member hmember => ?_⟩
      exact ih _ (List.mem_map_of_mem hmember) (hreadable member hmember)
    | number n => exact ⟨hself n rfl, fun child hchild => by cases hchild⟩
    | unreadable => cases hreadable
    | _ => exact ⟨trivial, fun child hchild => by cases hchild⟩

theorem All.readable {p : JsonNumber → Prop} {json : Json} (h : json.All (Legible p)) :
    json.readable := by
  induction h with
  | @node json hself _ ih =>
    cases json with
    | array items =>
      rw [readable_array, List.all_eq_true]
      exact ih
    | object members =>
      rw [readable_object, List.all_eq_true]
      exact fun member hmember => ih _ (List.mem_map_of_mem hmember)
    | unreadable => cases hself
    | _ => rfl

theorem All.canonical {p q : JsonNumber → Prop} {json : Json} (h : json.All (Legible p))
    (hwiden : ∀ n, p n → q n.widened) : json.canonical.All (Legible q) := by
  induction h with
  | @node json hself _ ih =>
    cases json with
    | number n =>
      rw [canonical_number]
      exact ⟨hwiden n hself, fun child hchild => by cases hchild⟩
    | array items =>
      rw [canonical_array, all_array, List.forall_mem_map]
      exact ⟨trivial, ih⟩
    | object members =>
      rw [canonical_object, all_object, List.forall_mem_map]
      exact ⟨trivial, fun member hmember => ih _ (List.mem_map_of_mem (mem_sortMembers hmember))⟩
    | unreadable => cases hself
    | _ => exact ⟨trivial, fun child hchild => by cases hchild⟩

end Json

end ObjectQuery
