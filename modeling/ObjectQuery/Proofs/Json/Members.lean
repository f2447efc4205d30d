import Mathlib.Data.List.Dedup
import Mathlib.Data.List.Induction
import Mathlib.Data.List.Nodup
import ObjectQuery.Bindings
import ObjectQuery.Json

/-!
Names in lists of members. Main statements: sorting gives every name once and in order, keeps the
last member of each name and thus all members if their names differ, and changes nothing when it is
done again.
-/

namespace ObjectQuery

namespace Bindings

variable {α β : Type}

theorem get?_eq_some_iff {bindings : Bindings α} (hnodup : (bindings.map (·.1)).Nodup)
    {name : String} {value : α} : get? bindings name = some value ↔ (name, value) ∈ bindings := by
  refine ⟨mem_of_get?_eq_some, fun h => ?_⟩
  induction bindings with
  | nil => cases h
  | cons pair rest ih =>
    obtain ⟨hfirst, hrest⟩ := List.nodup_cons.mp hnodup
    rcases List.mem_cons.mp h with rfl | h
    · simp [get?]
    · have hne : pair.1 ≠ name := by
        rintro rfl
        exact hfirst (List.mem_map.mpr ⟨_, h, rfl⟩)
      simp [get?, hne, ih hrest h]

theorem get?_eq_find? (bindings : Bindings α) (name : String) :
    get? bindings name = (bindings.find? (·.1 == name)).map (·.2) := by
  induction bindings with
  | nil => rfl
  | cons pair rest ih =>
    rw [get?, List.find?_cons, ih]
    by_cases h : pair.1 = name
    · simp [h]
    · simp [h, beq_eq_false_iff_ne.mpr h]

theorem get?_map (f : α → β) (bindings : Bindings α) (name : String) :
    get? (bindings.map fun binding => (binding.1, f binding.2)) name =
      (get? bindings name).map f := by
  rw [get?_eq_find?, get?_eq_find?, List.find?_map, Option.map_map, Option.map_map]
  rfl

theorem get?_append (bindings rest : Bindings α) (name : String) :
    get? (bindings ++ rest) name = (get? bindings name).or (get? rest name) := by
  rw [get?_eq_find?, get?_eq_find?, get?_eq_find?, List.find?_append, Option.map_or]

theorem get?_ne_none_iff {bindings : Bindings α} {name : String} :
    get? bindings name ≠ none ↔ name ∈ bindings.map (·.1) := by
  rw [Ne, get?_eq_none_iff]
  simp

theorem get?_perm {bindings other : Bindings α} (hperm : bindings.Perm other)
    (hnodup : (bindings.map (·.1)).Nodup) (name : String) :
    get? bindings name = get? other name := by
  refine Option.ext fun value => ?_
  rw [get?_eq_some_iff hnodup, get?_eq_some_iff ((hperm.map _).nodup_iff.mp hnodup), hperm.mem_iff]

theorem get?_reverse_of_mem {bindings : Bindings α} {name : String} {value : α}
    (hnodup : (bindings.map (·.1)).Nodup) (h : (name, value) ∈ bindings) :
    get? bindings.reverse name = some value := by
  refine (get?_eq_some_iff ?_).mpr (List.mem_reverse.mpr h)
  rwa [List.map_reverse, List.nodup_reverse]

theorem mem_insert {bindings : Bindings α} {name : String} {value : α} {pair : String × α}
    (h : pair ∈ insert bindings name value) : pair = (name, value) ∨ pair ∈ bindings := by
  induction bindings with
  | nil => exact .inl (List.mem_singleton.mp h)
  | cons kept rest ih =>
    simp only [insert] at h
    split at h
    · rcases List.mem_cons.mp h with h | h
      · exact .inl h
      · exact .inr (List.mem_cons_of_mem _ h)
    · rcases List.mem_cons.mp h with h | h
      · exact .inr (List.mem_cons.mpr (.inl h))
      · exact (ih h).imp_right (List.mem_cons_of_mem _)

theorem nodup_insert {bindings : Bindings α} (hnodup : (bindings.map (·.1)).Nodup) (name : String)
    (value : α) : ((insert bindings name value).map (·.1)).Nodup := by
  induction bindings with
  | nil => simp [insert]
  | cons kept rest ih =>
    obtain ⟨hfirst, hrest⟩ := List.nodup_cons.mp hnodup
    simp only [insert]
    split
    · rename_i heq
      exact List.nodup_cons.mpr ⟨heq ▸ hfirst, hrest⟩
    · rename_i hne
      refine List.nodup_cons.mpr ⟨fun hmem => ?_, ih hrest⟩
      obtain ⟨pair, hpair, hname⟩ := List.mem_map.mp hmem
      rcases mem_insert hpair with rfl | hpair
      · exact hne hname.symm
      · exact hfirst (List.mem_map.mpr ⟨pair, hpair, hname⟩)

theorem insert_of_forall_ne {bindings : Bindings α} {name : String} (value : α)
    (h : ∀ pair ∈ bindings, pair.1 ≠ name) :
    insert bindings name value = bindings ++ [(name, value)] := by
  induction bindings with
  | nil => rfl
  | cons kept rest ih =>
    simp [insert, h kept (by simp), ih fun pair hpair => h pair (by simp [hpair])]

theorem ofList_append_singleton (pairs : List (String × α)) (last : String × α) :
    ofList (pairs ++ [last]) = insert (ofList pairs) last.1 last.2 := by
  simp [ofList]

theorem mem_ofList {pairs : List (String × α)} {pair : String × α} (h : pair ∈ ofList pairs) :
    pair ∈ pairs := by
  induction pairs using List.reverseRecOn with
  | nil => cases h
  | append_singleton before last ih =>
    rw [ofList_append_singleton] at h
    rcases mem_insert h with rfl | h
    · simp
    · exact List.mem_append_left _ (ih h)

theorem nodup_ofList (pairs : List (String × α)) : ((ofList pairs).map (·.1)).Nodup := by
  induction pairs using List.reverseRecOn with
  | nil => exact List.nodup_nil
  | append_singleton before last ih =>
    rw [ofList_append_singleton]
    exact nodup_insert ih last.1 last.2

theorem ofList_eq_self {pairs : List (String × α)} (hnodup : (pairs.map (·.1)).Nodup) :
    ofList pairs = pairs := by
  induction pairs using List.reverseRecOn with
  | nil => rfl
  | append_singleton before last ih =>
    rw [List.map_append, List.nodup_append] at hnodup
    obtain ⟨hbefore, -, hne⟩ := hnodup
    have hfresh : ∀ pair ∈ before, pair.1 ≠ last.1 := fun pair hpair =>
      hne pair.1 (List.mem_map_of_mem hpair) last.1 (by simp)
    rw [ofList_append_singleton, ih hbefore, insert_of_forall_ne _ hfresh]

end Bindings

namespace Json

variable {α β : Type} {members : List (String × α)} {name : String}

theorem mem_insertMember {value : α} {member : String × α}
    (h : member ∈ insertMember name value members) : member = (name, value) ∨ member ∈ members := by
  induction members with
  | nil => exact .inl (List.mem_singleton.mp h)
  | cons kept rest ih =>
    simp only [insertMember] at h
    split at h
    · exact List.mem_cons.mp h
    · split at h
      · rcases List.mem_cons.mp h with h | h
        · exact .inl h
        · exact .inr (List.mem_cons_of_mem _ h)
      · rcases List.mem_cons.mp h with h | h
        · exact .inr (List.mem_cons.mpr (.inl h))
        · exact (ih h).imp_right (List.mem_cons_of_mem _)

theorem sortMembers_append_singleton (members : List (String × α)) (last : String × α) :
    sortMembers (members ++ [last]) = insertMember last.1 last.2 (sortMembers members) := by
  simp [sortMembers]

theorem mem_sortMembers {member : String × α} (h : member ∈ sortMembers members) :
    member ∈ members := by
  induction members using List.reverseRecOn with
  | nil => exact h
  | append_singleton before last ih =>
    rw [sortMembers_append_singleton] at h
    rcases mem_insertMember h with rfl | h
    · simp
    · exact List.mem_append_left _ (ih h)

/-- Every name stands once, and the names ascend. -/
def NamesAscend (members : List (String × α)) : Prop := members.Pairwise (·.1 < ·.1)

theorem NamesAscend.nodup (h : NamesAscend members) : (members.map (·.1)).Nodup :=
  List.pairwise_map.mpr (h.imp fun {a b} hlt (heq : a.1 = b.1) => String.lt_irrefl b.1 (heq ▸ hlt))

theorem namesAscend_insertMember (h : NamesAscend members) (name : String) (value : α) :
    NamesAscend (insertMember name value members) := by
  induction members with
  | nil => simp [insertMember, NamesAscend]
  | cons kept rest ih =>
    obtain ⟨hfirst, hrest⟩ := List.pairwise_cons.mp h
    simp only [insertMember]
    split
    · rename_i hlt
      refine List.pairwise_cons.mpr ⟨fun member hmember => ?_, h⟩
      rcases List.mem_cons.mp hmember with rfl | hmember
      · exact hlt
      · exact String.lt_trans hlt (hfirst member hmember)
    · rename_i hnlt
      split
      · rename_i heq
        exact List.pairwise_cons.mpr ⟨fun member hmember => heq ▸ hfirst member hmember, hrest⟩
      · rename_i hne
        refine List.pairwise_cons.mpr ⟨fun member hmember => ?_, ih hrest⟩
        rcases mem_insertMember hmember with rfl | hmember
        · have hle : kept.1 ≤ name := String.not_lt.mp hnlt
          exact String.not_le.mp fun hge => hne (String.le_antisymm hge hle)
        · exact hfirst member hmember

theorem namesAscend_sortMembers (members : List (String × α)) :
    NamesAscend (sortMembers members) := by
  induction members using List.reverseRecOn with
  | nil => exact List.Pairwise.nil
  | append_singleton before last ih =>
    rw [sortMembers_append_singleton]
    exact namesAscend_insertMember ih last.1 last.2

theorem insertMember_of_forall_lt {value : α} (h : ∀ member ∈ members, member.1 < name) :
    insertMember name value members = members ++ [(name, value)] := by
  induction members with
  | nil => rfl
  | cons kept rest ih =>
    have hlt : kept.1 < name := h kept (by simp)
    have hne : name ≠ kept.1 := fun heq => String.lt_irrefl _ (heq ▸ hlt)
    simp [insertMember, String.lt_asymm hlt, hne, ih fun member hmember =>
      h member (by simp [hmember])]

theorem sortMembers_of_namesAscend (h : NamesAscend members) : sortMembers members = members := by
  induction members using List.reverseRecOn with
  | nil => rfl
  | append_singleton before last ih =>
    obtain ⟨hbefore, -, hlt⟩ := List.pairwise_append.mp h
    rw [sortMembers_append_singleton, ih hbefore,
      insertMember_of_forall_lt fun member hmember => hlt member hmember last (by simp)]

@[simp] theorem sortMembers_sortMembers (members : List (String × α)) :
    sortMembers (sortMembers members) = sortMembers members :=
  sortMembers_of_namesAscend (namesAscend_sortMembers members)

theorem insertMember_perm {value : α} (h : ∀ member ∈ members, member.1 ≠ name) :
    (insertMember name value members).Perm ((name, value) :: members) := by
  induction members with
  | nil => exact .refl _
  | cons kept rest ih =>
    simp only [insertMember]
    split
    · exact .refl _
    · rw [if_neg fun heq => h kept (by simp) heq.symm]
      exact ((ih fun member hmember => h member (by simp [hmember])).cons kept).trans
        (.swap _ _ _)

theorem sortMembers_perm (hnodup : (members.map (·.1)).Nodup) :
    (sortMembers members).Perm members := by
  induction members using List.reverseRecOn with
  | nil => exact .refl _
  | append_singleton before last ih =>
    rw [List.map_append, List.nodup_append] at hnodup
    obtain ⟨hbefore, -, hne⟩ := hnodup
    have hfresh : ∀ member ∈ sortMembers before, member.1 ≠ last.1 := fun member hmember =>
      hne member.1 (List.mem_map_of_mem (mem_sortMembers hmember)) last.1 (by simp)
    rw [sortMembers_append_singleton]
    exact (insertMember_perm hfresh).trans
      (((ih hbefore).cons last).trans (List.perm_append_singleton last before).symm)

theorem get?_insertMember (members : List (String × α)) (name other : String) (value : α) :
    Bindings.get? (insertMember name value members) other =
      if name = other then some value else Bindings.get? members other := by
  induction members with
  | nil => rfl
  | cons kept rest ih =>
    simp only [insertMember]
    split
    · rfl
    · split
      · rename_i hsame
        simp only [Bindings.get?, ← hsame]
        split <;> rfl
      · rename_i hne
        simp only [Bindings.get?, ih]
        by_cases hname : name = other
        · rw [if_neg fun hkept => hne (hname.trans hkept.symm), if_pos hname, if_pos hname]
        · rw [if_neg hname, if_neg hname]

theorem get?_sortMembers (members : List (String × α)) (name : String) :
    Bindings.get? (sortMembers members) name = Bindings.get? members.reverse name := by
  induction members using List.reverseRecOn with
  | nil => rfl
  | append_singleton before last ih =>
    rw [sortMembers_append_singleton, get?_insertMember, ih, List.reverse_append]
    rfl

theorem length_sortMembers (members : List (String × α)) :
    (sortMembers members).length = (members.map (·.1)).dedup.length := by
  have hnames : ∀ name, name ∈ (sortMembers members).map (·.1) ↔
    name ∈ (members.map (·.1)).dedup := by
    intro name
    rw [List.mem_dedup, ← Bindings.get?_ne_none_iff, get?_sortMembers, Bindings.get?_ne_none_iff,
      List.map_reverse, List.mem_reverse]
  rw [← List.length_map (·.1)]
  exact ((List.perm_ext_iff_of_nodup (namesAscend_sortMembers members).nodup
    (List.nodup_dedup _)).mpr hnames).length_eq

theorem insertMember_map (f : α → β) (value : α) :
    insertMember name (f value) (members.map fun member => (member.1, f member.2)) =
      (insertMember name value members).map fun member => (member.1, f member.2) := by
  induction members with
  | nil => rfl
  | cons kept rest ih =>
    simp only [List.map_cons, insertMember, ih]
    split
    · rfl
    · split <;> rfl

theorem sortMembers_map (f : α → β) (members : List (String × α)) :
    sortMembers (members.map fun member => (member.1, f member.2)) =
      (sortMembers members).map fun member => (member.1, f member.2) := by
  induction members using List.reverseRecOn with
  | nil => rfl
  | append_singleton before last ih =>
    rw [List.map_append, List.map_singleton, sortMembers_append_singleton, ih,
      sortMembers_append_singleton]
    exact insertMember_map f last.2

end Json

end ObjectQuery
