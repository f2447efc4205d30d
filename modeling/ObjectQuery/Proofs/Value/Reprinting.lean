import ObjectQuery.Proofs.Json.Tree
import ObjectQuery.Proofs.Value.Plain

/-!
Plain JSON that is read as a value and written again. Main statement: it is the same JSON if its
numbers are signed 64-bit integers or finite doubles, and no mark of an object is anything but its
type.
-/

namespace ObjectQuery

/-- A signed 64-bit integer or a finite double. -/
def JsonNumber.IsPlain : JsonNumber → Prop
  | .integer n => Value.fitsInt64 n
  | .double x => x.isFinite
  | .single _ => False

namespace Json

variable {members : List (String × Json)} {typeName : String}

/-! ### Members -/

theorem NamesAscend.eq_of_perm {α : Type} {members others : List (String × α)}
    (h : NamesAscend members) (h' : NamesAscend others) (hperm : members.Perm others) :
    members = others :=
  hperm.eq_of_pairwise (fun _ _ _ _ hlt hgt => absurd hgt (String.lt_asymm hlt)) h h'

theorem namesAscend_of_canonical (h : (Json.object members).canonical = .object members) :
    NamesAscend members := by
  rw [canonical_object, object.injEq] at h
  rw [← h, NamesAscend, List.pairwise_map]
  exact namesAscend_sortMembers members

theorem eq_self_of_map_eq_self {α : Type} {f : α → α} {items : List α} (h : items.map f = items) :
    ∀ item ∈ items, f item = item :=
  List.map_eq_map_iff.mp (h.trans (List.map_id' items).symm)

theorem canonical_of_mem_children {json child : Json} (h : json.canonical = json)
    (hchild : child ∈ json.children) : child.canonical = child := by
  cases json with
  | array items =>
    rw [canonical_array, array.injEq] at h
    exact eq_self_of_map_eq_self h child hchild
  | object members =>
    obtain ⟨member, hmember, rfl⟩ := List.mem_map.mp hchild
    have hsorted := sortMembers_of_namesAscend (namesAscend_of_canonical h)
    rw [canonical_object, object.injEq, hsorted] at h
    exact congrArg Prod.snd (eq_self_of_map_eq_self h member hmember)
  | _ => cases hchild

/-- No member of an object is a mark, but for its type. -/
def OnlyTypeMarked : Json → Prop
  | object members => ∀ member ∈ members, Value.isMark member.1 → member.1 = "$type"
  | _ => True

theorem sortMembers_type_cons_fields (hascend : NamesAscend members)
    (hmarks : (object members).OnlyTypeMarked)
    (htype : Bindings.get? members "$type" = some (.string typeName)) :
    sortMembers
      (("$type", .string typeName) :: members.filter fun member => !Value.isMark member.1) =
      members := by
  have hmark : Value.isMark "$type" = true := by decide +kernel
  have hnames : (("$type", Json.string typeName) ::
      members.filter fun member => !Value.isMark member.1).map (·.1) |>.Nodup := by
    refine List.nodup_cons.mpr ⟨fun hmem => ?_, hascend.nodup.sublist (List.filter_sublist.map _)⟩
    obtain ⟨member, hmember, hname⟩ := List.mem_map.mp hmem
    have hplain := (List.mem_filter.mp hmember).2
    simp only [hname] at hplain
    rw [hmark] at hplain
    cases hplain
  refine (namesAscend_sortMembers _).eq_of_perm hascend ((sortMembers_perm hnames).trans ?_)
  refine (List.perm_ext_iff_of_nodup hnames.of_map hascend.nodup.of_map).mpr fun member => ?_
  rw [Bindings.get?_eq_some_iff hascend.nodup] at htype
  rw [List.mem_cons, List.mem_filter]
  constructor
  · rintro (rfl | ⟨hmember, -⟩)
    · exact htype
    · exact hmember
  · intro hmember
    by_cases hplain : Value.isMark member.1
    · obtain ⟨name, value⟩ := member
      obtain rfl : name = "$type" := hmarks _ hmember hplain
      -- There is one member of each name.
      rw [← Bindings.get?_eq_some_iff hascend.nodup] at hmember htype
      exact .inl (congrArg _ (Option.some.inj (hmember.symm.trans htype)))
    · exact .inr ⟨hmember, by simpa using hplain⟩

end Json

namespace Value

open Json

/-! ### Reading and writing -/

theorem toJson_ofJsonNumber {n : JsonNumber} (h : n.IsPlain) :
    (ofJsonNumber n).toJson = .number n := by
  cases n with
  | integer n =>
    rw [ofJsonNumber]
    split
    · rename_i hsmall
      rw [Bool.and_eq_true, decide_eq_true_eq, decide_eq_true_eq] at hsmall
      rw [toJson, Json.ofInt, Int32.toInt_ofInt_of_le hsmall.1 (Int.lt_add_one_of_le hsmall.2)]
    · have hfits : fitsInt64 n := h
      rw [if_pos hfits]
      rw [fitsInt64, Bool.and_eq_true, decide_eq_true_eq, decide_eq_true_eq] at hfits
      rw [toJson, Json.ofInt,
        Int64.toInt_ofInt_of_le hfits.1 (Int.lt_add_one_of_le hfits.2)]
  | double x => exact if_pos h
  | single x => exact h.elim

/-- Whatever the names of the objects that are made, a tree is written as it was read. -/
def Reprints (json : Json) : Prop := ∀ supply, ((ofJson json).run supply).1.toJson = json

theorem map_toJson_ofJsonItems {items : List Json} (h : ∀ item ∈ items, Reprints item)
    (supply : InstanceId) : ((ofJsonItems items).run supply).1.map toJson = items := by
  induction items generalizing supply with
  | nil => rfl
  | cons item rest ih =>
    obtain ⟨hitem, hrest⟩ := List.forall_mem_cons.mp h
    exact congrArg₂ List.cons (hitem supply) (ih hrest _)

theorem map_toJson_ofJsonMembers {members : List (String × Json)}
    (h : ∀ member ∈ members, Reprints member.2) (supply : InstanceId) :
    ((ofJsonMembers members).run supply).1.map (fun member => (member.1, member.2.toJson)) =
      members := by
  induction members generalizing supply with
  | nil => rfl
  | cons member rest ih =>
    obtain ⟨name, json⟩ := member
    obtain ⟨hmember, hrest⟩ := List.forall_mem_cons.mp h
    exact congrArg₂ List.cons (congrArg (Prod.mk name) (hmember supply)) (ih hrest _)

theorem run_ofJson_object_of_type {members : List (String × Json)} {typeName : String}
    (htype : Bindings.get? members "$type" = some (.string typeName)) (supply : InstanceId) :
    ((ofJson (.object members)).run supply).1 =
      object ((ofJsonMembers members).run supply).2 typeName
        (Bindings.ofList (((ofJsonMembers members).run supply).1.filter fun member =>
          !isMark member.1))
        (Bindings.get? ((ofJsonMembers members).run supply).1 "$id") := by
  rw [ofJson, htype]
  rfl

theorem run_ofJson_object_of_not_type {members : List (String × Json)}
    (htype : (Bindings.get? members "$type").bind Json.string? = none) (supply : InstanceId) :
    ((ofJson (.object members)).run supply).1 =
      map (((ofJsonMembers members).run supply).1.map
        fun member => (string member.1, member.2)) := by
  rw [ofJson, htype]
  rfl

theorem reprints_object {members : List (String × Json)} (hascend : NamesAscend members)
    (hmarks : (Json.object members).OnlyTypeMarked)
    (h : ∀ member ∈ members, Reprints member.2) : Reprints (.object members) := by
  intro supply
  have hvalues := map_toJson_ofJsonMembers h supply
  cases htype : (Bindings.get? members "$type").bind Json.string? with
  | none =>
    rw [run_ofJson_object_of_not_type htype, toJson, toJsonEntries_eq_map, List.map_map]
    -- A text is its own display text, so keys come back as they were.
    exact congrArg Json.object
      ((congrArg sortMembers hvalues).trans (sortMembers_of_namesAscend hascend))
  | some typeName =>
    obtain ⟨json, hjson, htext⟩ := Option.bind_eq_some_iff.mp htype
    obtain rfl : json = .string typeName := by
      cases json <;> cases htext
      rfl
    have hnames : ((ofJsonMembers members).run supply).1.map (·.1) = members.map (·.1) := by
      rw [← congrArg (List.map (·.1)) hvalues, List.map_map]
      rfl
    have hfields :
      (((ofJsonMembers members).run supply).1.filter fun member => !isMark member.1).map
        (fun member => (member.1, member.2.toJson)) =
          members.filter fun member => !isMark member.1 := by
      rw [← congrArg (List.filter _) hvalues, List.filter_map]
      rfl
    have hnodup : ((((ofJsonMembers members).run supply).1.filter fun member =>
        !isMark member.1).map (·.1)).Nodup :=
      (hnames ▸ hascend.nodup).sublist (List.filter_sublist.map _)
    rw [run_ofJson_object_of_type hjson, toJson, toJsonFields_eq_map,
      Bindings.ofList_eq_self hnodup,
      hfields]
    exact congrArg Json.object (sortMembers_type_cons_fields hascend hmarks hjson)

/-- A tree with every name once and in order in each object, as trees are that were read. -/
theorem reprints {json : Json} (hcanonical : json.canonical = json)
    (hnumbers : json.All (Legible JsonNumber.IsPlain)) (hmarks : json.All OnlyTypeMarked) :
    Reprints json := by
  induction json using Json.induction_children with
  | step json ih =>
    have hchildren : ∀ child ∈ json.children, Reprints child := fun child hchild =>
      ih child hchild (canonical_of_mem_children hcanonical hchild) (hnumbers.child child hchild)
        (hmarks.child child hchild)
    cases json with
    | number n => exact fun _ => toJson_ofJsonNumber hnumbers.self
    | array items =>
      intro supply
      have hitems := map_toJson_ofJsonItems hchildren supply
      rw [← toJsonItems_eq_map] at hitems
      exact congrArg Json.array hitems
    | object members =>
      exact reprints_object (namesAscend_of_canonical hcanonical) hmarks.self
        fun member hmember => hchildren _ (List.mem_map_of_mem hmember)
    | unreadable => exact hnumbers.self.elim
    | _ => exact fun _ => rfl

end Value

end ObjectQuery
