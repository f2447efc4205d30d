import Mathlib.Data.List.Forall2
import Mathlib.Logic.Function.Basic
import ObjectQuery.Value.Equality
import ObjectQuery.Value.Text

/-!
Other names for object instances. What operators and methods make of values does not depend on the
names of instances, as long as different instances keep different names.
-/

namespace ObjectQuery.Value

/-- The values that a value holds directly. -/
def children : Value → List Value
  | array items | list items | set items => items
  | map entries => entries.map (·.1) ++ entries.map (·.2)
  | object _ _ fields identity => fields.map (·.2) ++ identity.toList
  | _ => []

theorem sizeOf_lt_of_mem_children {value child : Value} (h : child ∈ value.children) :
    sizeOf child < sizeOf value := by
  cases value with
  | array items | list items | set items =>
    have hlt : sizeOf child < sizeOf items := List.sizeOf_lt_of_mem h
    simp
    omega
  | map entries =>
    rcases List.mem_append.mp h with h | h
    · obtain ⟨entry, hentry, rfl⟩ := List.mem_map.mp h
      have := List.sizeOf_lt_of_mem hentry
      rcases entry with ⟨k, v⟩
      simp only [Prod.mk.sizeOf_spec, map.sizeOf_spec] at *
      omega
    · obtain ⟨entry, hentry, rfl⟩ := List.mem_map.mp h
      have := List.sizeOf_lt_of_mem hentry
      rcases entry with ⟨k, v⟩
      simp only [Prod.mk.sizeOf_spec, map.sizeOf_spec] at *
      omega
  | object id typeName fields identity =>
    rcases List.mem_append.mp h with h | h
    · obtain ⟨field, hfield, rfl⟩ := List.mem_map.mp h
      have := List.sizeOf_lt_of_mem hfield
      rcases field with ⟨name, v⟩
      simp only [Prod.mk.sizeOf_spec, object.sizeOf_spec] at *
      omega
    · obtain rfl : identity = some child := by simpa using h
      simp only [object.sizeOf_spec, Option.some.sizeOf_spec]
      omega
  | _ => simp [children] at h

theorem induction_children {motive : Value → Prop}
    (step : ∀ value, (∀ child ∈ value.children, motive child) → motive value) (value : Value) :
    motive value :=
  step value fun child hchild =>
    have := sizeOf_lt_of_mem_children hchild
    induction_children step child
termination_by value

/-- All parts of a value are as told, the value itself among them. -/
inductive All (p : Value → Prop) : Value → Prop where
  | node {value : Value} (self : p value) (below : ∀ child ∈ value.children, All p child) :
    All p value

namespace All

variable {p q : Value → Prop} {value : Value}

theorem self (h : value.All p) : p value := by
  obtain ⟨hself, _⟩ := h
  exact hself

theorem child (h : value.All p) : ∀ child ∈ value.children, child.All p := by
  obtain ⟨_, hbelow⟩ := h
  exact hbelow

theorem imp (hpq : ∀ value, p value → q value) (h : value.All p) : value.All q := by
  induction h with
  | node hself _ ih => exact ⟨hpq _ hself, ih⟩

end All

theorem all_iff {p : Value → Prop} {value : Value} :
    value.All p ↔ p value ∧ ∀ child ∈ value.children, child.All p :=
  ⟨fun h => ⟨h.self, h.child⟩, fun h => ⟨h.1, h.2⟩⟩

mutual

/-- The value with its object instances renamed. -/
def rename (ρ : InstanceId → InstanceId) : Value → Value
  | array items => array (renameList ρ items)
  | list items => list (renameList ρ items)
  | set items => set (renameList ρ items)
  | map entries => map (renameEntries ρ entries)
  | object id typeName fields identity =>
    object (ρ id) typeName (renameFields ρ fields) (renameOption ρ identity)
  | value => value
termination_by structural value => value

def renameList (ρ : InstanceId → InstanceId) : List Value → List Value
  | [] => []
  | value :: rest => rename ρ value :: renameList ρ rest
termination_by structural values => values

def renameEntries (ρ : InstanceId → InstanceId) : List (Value × Value) → List (Value × Value)
  | [] => []
  | (key, value) :: rest => (rename ρ key, rename ρ value) :: renameEntries ρ rest
termination_by structural entries => entries

def renameFields (ρ : InstanceId → InstanceId) : List (String × Value) → List (String × Value)
  | [] => []
  | (name, value) :: rest => (name, rename ρ value) :: renameFields ρ rest
termination_by structural fields => fields

def renameOption (ρ : InstanceId → InstanceId) : Option Value → Option Value
  | none => none
  | some value => some (rename ρ value)
termination_by structural value => value

end

variable (ρ : InstanceId → InstanceId)

@[simp] theorem renameList_eq_map (values : List Value) :
    renameList ρ values = values.map (rename ρ) := by
  induction values with
  | nil => rfl
  | cons value rest ih => simp [renameList, ih]

@[simp] theorem renameEntries_eq_map (entries : List (Value × Value)) :
    renameEntries ρ entries = entries.map fun entry => (entry.1.rename ρ, entry.2.rename ρ) := by
  induction entries with
  | nil => rfl
  | cons entry rest ih => simp [renameEntries, ih]

@[simp] theorem renameFields_eq_map (fields : List (String × Value)) :
    renameFields ρ fields = fields.map fun field => (field.1, field.2.rename ρ) := by
  induction fields with
  | nil => rfl
  | cons field rest ih => simp [renameFields, ih]

@[simp] theorem renameOption_eq_map (value : Option Value) :
    renameOption ρ value = value.map (rename ρ) := by
  cases value <;> rfl

theorem rename_eq_self {value : Value}
    (hid : ∀ id typeName fields identity, value = object id typeName fields identity → ρ id = id)
    (hchildren : ∀ child ∈ value.children, child.rename ρ = child) : value.rename ρ = value := by
  cases value with
  | array items | list items | set items =>
    have hitems : items.map (rename ρ) = items :=
      (List.map_congr_left hchildren).trans (List.map_id' items)
    simp [rename, hitems]
  | map entries =>
    simp only [children, List.mem_append, List.mem_map] at hchildren
    simp only [rename, renameEntries_eq_map, map.injEq]
    refine (List.map_congr_left fun entry hentry => ?_).trans (List.map_id' entries)
    rw [hchildren _ (.inl ⟨entry, hentry, rfl⟩), hchildren _ (.inr ⟨entry, hentry, rfl⟩)]
  | object id typeName fields identity =>
    simp only [children, List.mem_append, List.mem_map] at hchildren
    have hfields : fields.map (fun field => (field.1, field.2.rename ρ)) = fields := by
      refine (List.map_congr_left fun field hfield => ?_).trans (List.map_id' fields)
      rw [hchildren _ (.inl ⟨field, hfield, rfl⟩)]
    have hidentity : identity.map (rename ρ) = identity := by
      cases identity with
      | none => rfl
      | some value => simpa using hchildren value (.inr (by simp))
    simp [rename, hid id typeName fields identity rfl, hfields, hidentity]
  | _ => rfl

@[simp] theorem rename_id (value : Value) : value.rename id = value := by
  induction value using induction_children with
  | step value ih => exact rename_eq_self id (fun _ _ _ _ _ => rfl) ih

@[simp] theorem rename_id_eq_id : rename id = id := funext rename_id

/-! ### What does not see the names -/

@[simp] theorem typeName?_rename (value : Value) :
    (value.rename ρ).typeName? = value.typeName? := by
  cases value <;> rfl

@[simp] theorem describeType_rename (value : Value) :
    (value.rename ρ).describeType = value.describeType := by
  simp [describeType]

@[simp] theorem isNull_rename (value : Value) : (value.rename ρ).isNull = value.isNull := by
  cases value <;> rfl

@[simp] theorem isIntegral_rename (value : Value) :
    (value.rename ρ).isIntegral = value.isIntegral := by
  cases value <;> rfl

@[simp] theorem isNumeric_rename (value : Value) :
    (value.rename ρ).isNumeric = value.isNumeric := by
  cases value <;> rfl

@[simp] theorem string?_rename (value : Value) : (value.rename ρ).string? = value.string? := by
  cases value <;> rfl

@[simp] theorem elements?_rename (value : Value) :
    (value.rename ρ).elements? = value.elements?.map (List.map (rename ρ)) := by
  cases value with
  | array items | list items | set items => simp [rename, elements?]
  | _ => rfl

@[simp] theorem boundedIntegral?_rename (value : Value) :
    (value.rename ρ).boundedIntegral? = value.boundedIntegral? := by
  cases value <;> rfl

@[simp] theorem binary?_rename (value : Value) : (value.rename ρ).binary? = value.binary? := by
  cases value <;> rfl

@[simp] theorem toDecimal?_rename (value : Value) :
    (value.rename ρ).toDecimal? = value.toDecimal? := by
  cases value <;> rfl

@[simp] theorem toInt64?_rename (value : Value) :
    (value.rename ρ).toInt64? = value.toInt64? := by
  cases value <;> rfl

@[simp] theorem toDouble?_rename (value : Value) :
    (value.rename ρ).toDouble? = value.toDouble? := by
  cases value <;> rfl

theorem rename_of_isNumeric {value : Value} (h : value.isNumeric) : value.rename ρ = value := by
  cases value <;> first | rfl | simp [isNumeric, isIntegral] at h

@[simp] theorem compare?_rename (left right : Value) :
    (left.rename ρ).compare? (right.rename ρ) = left.compare? right := by
  cases left <;> cases right <;> rfl

theorem itemTexts_eq_map (items : List Value) : itemTexts items = items.map toText := by
  induction items with
  | nil => rfl
  | cons item rest ih => simp [itemTexts, ih]

theorem entryTexts_eq_map (entries : List (Value × Value)) :
    entryTexts entries = entries.map fun entry => entry.1.toText ++ "=" ++ entry.2.toText := by
  induction entries with
  | nil => rfl
  | cons entry rest ih => simp [entryTexts, ih]

theorem fieldTexts_eq_map (fields : List (String × Value)) :
    fieldTexts fields = fields.map fun field => field.1 ++ "=" ++ field.2.toText := by
  induction fields with
  | nil => rfl
  | cons field rest ih => simp [fieldTexts, ih]

@[simp] theorem toText_rename (value : Value) : (value.rename ρ).toText = value.toText := by
  induction value using induction_children with
  | step value ih =>
    cases value with
    | array items | list items | set items =>
      simp only [rename, toText, renameList_eq_map, itemTexts_eq_map, List.map_map]
      congr 3
      exact List.map_congr_left ih
    | map entries =>
      simp only [children, List.mem_append, List.mem_map] at ih
      simp only [rename, toText, renameEntries_eq_map, entryTexts_eq_map, List.map_map]
      congr 1
      refine List.map_congr_left fun entry hentry => ?_
      simp [ih _ (.inl ⟨entry, hentry, rfl⟩), ih _ (.inr ⟨entry, hentry, rfl⟩)]
    | object id typeName fields identity =>
      simp only [children, List.mem_append, List.mem_map] at ih
      cases identity with
      | none =>
        simp only [rename, renameFields_eq_map, renameOption_eq_map, Option.map_none, toText,
          fieldTexts_eq_map, List.map_map]
        congr 2
        refine List.map_congr_left fun field hfield => ?_
        simp [ih _ (.inl ⟨field, hfield, rfl⟩)]
      | some value =>
        have hvalue := ih value (.inr (by simp))
        simp [rename, toText, hvalue]
    | _ => rfl

/-! ### Equality position by position -/

variable {ρ}

theorem forall₂_congr_of_mem {α β : Type} {r s : α → β → Prop} {as : List α} {bs : List β}
    (h : ∀ a ∈ as, ∀ b ∈ bs, (r a b ↔ s a b)) : List.Forall₂ r as bs ↔ List.Forall₂ s as bs := by
  rw [List.forall₂_iff_zip, List.forall₂_iff_zip]
  refine and_congr_right fun _ => forall_congr' fun a => forall_congr' fun b => ?_
  exact imp_congr_right fun hmem => h a (List.of_mem_zip hmem).1 b (List.of_mem_zip hmem).2

theorem strictEqList_iff {as bs : List Value} :
    strictEqList as bs ↔ List.Forall₂ (fun a b : Value => a.strictEq b) as bs := by
  induction as generalizing bs with
  | nil => cases bs <;> simp [strictEqList]
  | cons a as ih => cases bs <;> simp [strictEqList, ih]

theorem strictEqEntries_iff {as bs : List (Value × Value)} :
    strictEqEntries as bs ↔
      List.Forall₂ (fun a b : Value × Value => a.1.strictEq b.1 ∧ a.2.strictEq b.2) as bs := by
  induction as generalizing bs with
  | nil => cases bs <;> simp [strictEqEntries]
  | cons a as ih => cases bs <;> simp [strictEqEntries, ih, and_assoc]

theorem looseEqList_iff {as bs : List Value} :
    looseEqList as bs ↔ List.Forall₂ (fun a b : Value => a.looseEq b) as bs := by
  induction as generalizing bs with
  | nil => cases bs <;> simp [looseEqList]
  | cons a as ih => cases bs <;> simp [looseEqList, ih]

/-! ### Equality of renamed values -/

theorem strictEqList_map {f : Value → Value} {left : List Value} (right : List Value)
    (h : ∀ a ∈ left, ∀ b, strictEq (f a) (f b) = strictEq a b) :
    strictEqList (left.map f) (right.map f) = strictEqList left right := by
  rw [Bool.eq_iff_iff, strictEqList_iff, strictEqList_iff, List.forall₂_map_left_iff,
    List.forall₂_map_right_iff]
  exact forall₂_congr_of_mem fun a ha b _ => by rw [h a ha]

theorem strictEqEntries_map {f : Value → Value} {left : List (Value × Value)}
    (right : List (Value × Value))
    (hkey : ∀ entry ∈ left, ∀ b, strictEq (f entry.1) (f b) = strictEq entry.1 b)
    (hvalue : ∀ entry ∈ left, ∀ b, strictEq (f entry.2) (f b) = strictEq entry.2 b) :
    strictEqEntries (left.map fun entry => (f entry.1, f entry.2))
      (right.map fun entry => (f entry.1, f entry.2)) = strictEqEntries left right := by
  rw [Bool.eq_iff_iff, strictEqEntries_iff, strictEqEntries_iff, List.forall₂_map_left_iff,
    List.forall₂_map_right_iff]
  exact forall₂_congr_of_mem fun a ha b _ => by rw [hkey a ha, hvalue a ha]

theorem strictEq_rename (hρ : Function.Injective ρ) (left right : Value) :
    strictEq (left.rename ρ) (right.rename ρ) = strictEq left right := by
  induction left using induction_children generalizing right with
  | step left ih =>
    cases left with
    | array items | list items | set items =>
      simp only [children] at ih
      cases right <;> first | rfl | simpa [rename, strictEq] using strictEqList_map _ ih
    | map entries =>
      simp only [children, List.mem_append, List.mem_map] at ih
      cases right <;> first
        | rfl
        | simpa [rename, strictEq] using strictEqEntries_map _
            (fun entry hentry => ih _ (.inl ⟨entry, hentry, rfl⟩))
            fun entry hentry => ih _ (.inr ⟨entry, hentry, rfl⟩)
    | object id typeName fields identity =>
      simp only [children, List.mem_append] at ih
      cases right with
      | object id' typeName' fields' identity' =>
        have hid : (ρ id == ρ id') = (id == id') := by
          simp [BEq.beq, hρ.eq_iff]
        have hidentity : strictEqIdentity (identity.map (rename ρ)) (identity'.map (rename ρ)) =
            strictEqIdentity identity identity' := by
          cases identity with
          | none => rfl
          | some value =>
            cases identity' with
            | none => rfl
            | some value' => exact ih value (.inr (by simp)) value'
        simp [rename, strictEq, hid, hidentity]
      | _ => rfl
    | _ => cases right <;> rfl

theorem looseEqList_map {f : Value → Value} {left : List Value} (right : List Value)
    (h : ∀ a ∈ left, ∀ b, looseEq (f a) (f b) = looseEq a b) :
    looseEqList (left.map f) (right.map f) = looseEqList left right := by
  rw [Bool.eq_iff_iff, looseEqList_iff, looseEqList_iff, List.forall₂_map_left_iff,
    List.forall₂_map_right_iff]
  exact forall₂_congr_of_mem fun a ha b _ => by rw [h a ha]

theorem looseSubset_map {f : Value → Value} {left : List Value} (right : List Value)
    (h : ∀ a ∈ left, ∀ b, looseEq (f a) (f b) = looseEq a b) :
    looseSubset (left.map f) (right.map f) = looseSubset left right := by
  induction left with
  | nil => rfl
  | cons a as ih =>
    simp only [List.map_cons, looseSubset, List.any_map]
    rw [ih fun a' ha' => h a' (by simp [ha'])]
    congr 2
    funext b
    exact h a (by simp) b

theorem looseSubmap_map {f : Value → Value} {left : List (Value × Value)}
    (right : List (Value × Value))
    (hkey : ∀ entry ∈ left, ∀ b, looseEq (f entry.1) (f b) = looseEq entry.1 b)
    (hvalue : ∀ entry ∈ left, ∀ b, looseEq (f entry.2) (f b) = looseEq entry.2 b) :
    looseSubmap (left.map fun entry => (f entry.1, f entry.2))
      (right.map fun entry => (f entry.1, f entry.2)) = looseSubmap left right := by
  induction left with
  | nil => rfl
  | cons a as ih =>
    simp only [List.map_cons, looseSubmap, List.any_map]
    rw [ih (fun a' ha' => hkey a' (by simp [ha'])) fun a' ha' => hvalue a' (by simp [ha'])]
    congr 2
    funext b
    simp [hkey a (by simp), hvalue a (by simp)]

theorem looseEq_rename (hρ : Function.Injective ρ) (left right : Value) :
    looseEq (left.rename ρ) (right.rename ρ) = looseEq left right := by
  induction left using induction_children generalizing right with
  | step left ih =>
    cases left with
    | array items | list items =>
      simp only [children] at ih
      cases right <;> first
        | rfl
        | simpa [rename, looseEq] using congrArg _ (looseEqList_map _ ih)
    | set items =>
      simp only [children] at ih
      cases right <;> first
        | rfl
        | simpa [rename, looseEq] using congrArg _ (looseSubset_map _ ih)
    | map entries =>
      simp only [children, List.mem_append, List.mem_map] at ih
      cases right <;> first
        | rfl
        | simpa [rename, looseEq] using congrArg _ (looseSubmap_map _
            (fun entry hentry => ih _ (.inl ⟨entry, hentry, rfl⟩))
            fun entry hentry => ih _ (.inr ⟨entry, hentry, rfl⟩))
    | object id typeName fields identity =>
      cases right with
      | object id' typeName' fields' identity' =>
        exact strictEq_rename hρ (object id typeName fields identity)
          (object id' typeName' fields' identity')
      | _ => rfl
    | _ => cases right <;> rfl

end ObjectQuery.Value
