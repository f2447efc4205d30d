import ObjectQuery.Catalog.ClassInfo
import ObjectQuery.Proofs.Json.Cut

/-!
Descriptions of types that are written and read again. Main statement: a description is read from
what is written of it, unless that is nested too deep.
-/

namespace ObjectQuery

open Json

variable {depth : ℕ}

theorem ConstructorParam.offers_ofJson? (param : ConstructorParam) (depth : ℕ) :
    Offers (ofJson? (param.toJson.canonical.cut depth)) (param.toJson.canonical.depth < depth)
      (· = param) := by
  have hread : Offers (ofJson? (param.toJson.canonical.cut depth)) (1 < depth ∧ True)
      (· = param) := by
    refine .bind (offers_record (by simp) _ _) fun found hfound => ?_
    rw [hfound]
    exact .here trivial rfl
  refine hread.congr ?_
  rw [toJson, depth_canonical_object_lt_iff (by simp)]
  simp [canonical, Json.depth]

theorem Constructor.offers_ofJson? (constructor : Constructor) (depth : ℕ) :
    Offers (ofJson? (constructor.toJson.canonical.cut depth))
      (constructor.toJson.canonical.depth < depth) (· = constructor) := by
  have hread : Offers (ofJson? (constructor.toJson.canonical.cut depth))
      (1 < depth ∧ 1 < depth - 1 ∧ ∀ param ∈ constructor.params,
        param.toJson.canonical.depth < depth - 1 - 1) (· = constructor) := by
    refine .bind (offers_record (by simp) _ _) fun found hfound => ?_
    rw [hfound]
    refine .bind (offers_items _ _) fun items hitems => ?_
    rw [hitems, List.map_map]
    refine .map (.mapM_map fun param _ => param.offers_ofJson? _) fun params hparams => ?_
    rw [eq_of_forall₂ hparams]
  refine hread.congr ?_
  rw [toJson, depth_canonical_object_lt_iff (by simp)]
  simp only [List.forall_mem_singleton, depth_canonical_array_lt_iff, List.forall_mem_map]

namespace ClassInfo

theorem offers_superclass (superclass : Option String) (depth : ℕ) :
    Offers (optional (fun json => json.string?)
      (some (((superclass.map Json.string).getD .null).canonical.cut depth))) True
      (· = superclass) := by
  cases superclass <;> exact .here trivial rfl

theorem offers_fields (fields : Option (List String)) (depth : ℕ) :
    Offers (optional strings?
      (some (((fields.map stringsJson).getD .null).canonical.cut depth)))
      (∀ names ∈ fields, 1 < depth) (· = fields) := by
  have hread : Offers (optional strings?
      (some (((fields.map stringsJson).getD .null).canonical.cut depth)))
      (∀ names ∈ fields, 1 < depth) (Option.Rel (fun a b => b = a) fields) :=
    offers_optional (fun _ _ => Json.noConfusion) fun names _ => offers_strings names depth
  exact hread.imp fun found hfound => eq_of_rel hfound

theorem offers_ofJson? (c : ClassInfo) (depth : ℕ) :
    Offers (ofJson? (c.toJson.canonical.cut depth)) (c.toJson.canonical.depth < depth) (· = c) := by
  have hread : Offers (ofJson? (c.toJson.canonical.cut depth))
      (1 < depth ∧ True ∧ True ∧ 1 < depth - 1 ∧ (∀ fields ∈ c.fields, 1 < depth - 1) ∧
        1 < depth - 1 ∧ ∀ constructor ∈ c.constructors,
          constructor.toJson.canonical.depth < depth - 1 - 1) (· = c) := by
    refine .bind (offers_record (by simp) _ _) fun found hfound => ?_
    rw [hfound]
    refine .bind (.here trivial rfl) fun name hname => ?_
    refine .bind (offers_superclass c.superclass _) fun superclass hsuperclass => ?_
    refine .bind (offers_strings c.interfaces _) fun interfaces hinterfaces => ?_
    refine .bind (offers_fields c.fields _) fun fields hfields => ?_
    refine .map (offers_list fun constructor _ => constructor.offers_ofJson? _)
      fun constructors hconstructors => ?_
    rw [← hname, hsuperclass, hinterfaces, hfields, eq_of_forall₂ hconstructors]
  refine hread.congr ?_
  rw [toJson, depth_canonical_object_lt_iff (by simp)]
  refine and_congr_right fun hdepth => ?_
  have hbelow : 0 < depth - 1 := by omega
  simp only [List.forall_mem_cons, depth_optional_lt_iff hbelow, stringsJson, depth_strings_lt_iff]
  simp only [depth_canonical_array_lt_iff, List.forall_mem_map]
  simp [canonical, Json.depth, hbelow]

theorem legible_toJson {p : JsonNumber → Prop} (c : ClassInfo) : c.toJson.All (Legible p) := by
  have hname : ∀ name, (Json.string name).All (Legible p) := fun _ => legible_of_leaf trivial rfl
  have hnames : ∀ names, (stringsJson names).All (Legible p) := fun _ =>
    legible_array.mpr (List.forall_mem_map.mpr fun name _ => hname name)
  rw [toJson, legible_object]
  simp only [List.forall_mem_cons]
  refine ⟨hname _, legible_optional fun _ _ => hname _, hnames _,
    legible_optional fun _ _ => hnames _, ?_, by simp⟩
  rw [legible_array, List.forall_mem_map]
  refine fun constructor _ => legible_object.mpr ?_
  rw [List.forall_mem_singleton, legible_array, List.forall_mem_map]
  exact fun param _ => legible_object.mpr (by simpa using ⟨hname param.field, hname param.typeName⟩)

end ClassInfo

end ObjectQuery
