import ObjectQuery.Proofs.Number.Conversion
import ObjectQuery.Proofs.Number.DecimalText
import ObjectQuery.Proofs.Value.Reading
import ObjectQuery.Proofs.Value.Renaming

/-!
Literals that are written and read again. Main statement: a value is read from what is written of it
exactly if its floats are finite and it is not nested too deep, and then is alike but for the names
of its objects.
-/

namespace ObjectQuery

open Json

/-! ### Big integers -/

theorem ofLimbs_limbs {fuel n : ℕ} (h : n < 2 ^ fuel) : ofLimbs (limbs fuel n) = n := by
  induction fuel generalizing n with
  | zero =>
    obtain rfl : n = 0 := by omega
    rfl
  | succ fuel ih =>
    rw [limbs]
    split
    · rename_i hzero
      exact hzero.symm
    · have hsize : UInt32.size = 4294967296 := rfl
      have hlt : n / UInt32.size < 2 ^ fuel := by
        rw [hsize]
        omega
      have hrest := ih hlt
      rw [ofLimbs] at hrest
      rw [ofLimbs, List.foldr_cons, hrest]
      exact Nat.mod_add_div' n UInt32.size

theorem lt_of_mem_limbs {fuel n limb : ℕ} (h : limb ∈ limbs fuel n) : limb < UInt32.size := by
  induction fuel generalizing n with
  | zero => cases h
  | succ fuel ih =>
    rw [limbs] at h
    split at h
    · cases h
    · rcases List.mem_cons.mp h with rfl | h
      · exact Nat.mod_lt _ (by decide)
      · exact ih h

theorem canonical_limbsJson (n : Int) : (limbsJson n).canonical = limbsJson n := by
  have hleaf : ∀ n : Int, (ofInt n).canonical = ofInt n := fun _ => rfl
  simp [limbsJson, Function.comp_def, hleaf]

theorem ofLimbsJson?_limbsJson (n : Int) : ofLimbsJson? (limbsJson n) = some n := by
  have hsign : (ofInt n.sign).integer? (-1) 1 = some n.sign := by
    have : -1 ≤ n.sign ∧ n.sign ≤ 1 := by
      rcases Int.sign_trichotomy n with h | h | h <;> rw [h] <;> decide
    simp [ofInt, integer?, this]
  have hlimbs : ((limbs (n.natAbs.log2 + 1) n.natAbs).map fun (limb : ℕ) => ofInt limb).mapM
      (natural? UInt32.size) = some (limbs (n.natAbs.log2 + 1) n.natAbs) := by
    rw [mapM_map_eq_some fun limb hlimb => if_pos (lt_of_mem_limbs hlimb), List.map_id']
  rw [limbsJson, ofLimbsJson?]
  simp only [hsign, hlimbs, Option.bind_eq_bind, Option.bind_some,
    ofLimbs_limbs (Nat.lt_log2_self)]
  rw [Int.sign_mul_natAbs]
  rfl

theorem offers_limbs (n : Int) (depth : ℕ) :
    Offers (ofLimbsJson? ((limbsJson n).canonical.cut depth))
      ((limbsJson n).canonical.depth < depth) (· = n) := by
  have hleaf : ∀ n : Int, (ofInt n).depth = 0 := fun _ => rfl
  have hdepth : 1 < depth → 1 < depth - 1 → (limbsJson n).depth < depth := by
    intro hlist hlimbs
    simp only [limbsJson, depth_array_lt_iff, List.forall_mem_cons, List.forall_mem_map, hleaf]
    exact ⟨hlist, by omega, ⟨hlimbs, fun _ _ => by omega⟩, by simp⟩
  rw [canonical_limbsJson]
  by_cases hlt : (limbsJson n).depth < depth
  · rw [cut_eq_self hlt, ofLimbsJson?_limbsJson]
    exact .here hlt rfl
  · have hnone : ofLimbsJson? ((limbsJson n).cut depth) = none := by
      rw [limbsJson, cut_array]
      rcases Nat.lt_or_ge 1 depth with hlist | hlist
      · have hlimbs : depth - 1 ≤ 1 := by
          have := mt (hdepth hlist) hlt
          omega
        rw [nested_of_lt hlist, List.map_cons, List.map_singleton, cut_array, nested_of_le hlimbs]
        rfl
      · rw [nested_of_le hlist]
        rfl
    rw [hnone]
    exact .gone hlt

namespace Value

/-! ### Alike values -/

/-- Values that cannot be told apart but by the names of their objects: decimals have one value,
objects have one type, the same identity, and under each name the same field. -/
inductive Alike : Value → Value → Prop where
  | refl (value : Value) : Alike value value
  | decimal {a b : Decimal} (h : a.beq b) : Alike (.decimal a) (.decimal b)
  | array {as bs : List Value} (h : List.Forall₂ Alike as bs) : Alike (.array as) (.array bs)
  | list {as bs : List Value} (h : List.Forall₂ Alike as bs) : Alike (.list as) (.list bs)
  | set {as bs : List Value} (h : List.Forall₂ Alike as bs) : Alike (.set as) (.set bs)
  | map {as bs : List (Value × Value)}
      (hkeys : List.Forall₂ Alike (as.map (·.1)) (bs.map (·.1)))
      (hvalues : List.Forall₂ Alike (as.map (·.2)) (bs.map (·.2))) : Alike (.map as) (.map bs)
  | object {id id' : InstanceId} {typeName : String} {fields fields' : Bindings Value}
      {identity identity' : Option Value}
      (hfields : ∀ name, Option.Rel Alike (fields.get? name) (fields'.get? name))
      (hidentity : Option.Rel Alike identity identity') :
      Alike (.object id typeName fields identity) (.object id' typeName fields' identity')

/-- What is written of a value in a document. -/
def written (value : Value) : Json := value.toTagged.canonical

/-- A value with which a document is the same, and is written in the same way. -/
def Restores (value found : Value) : Prop := value.Alike found ∧ found.written = value.written

/-- What every value that is read from a document is: its doubles are finite, the scales of its
decimals fit, and the fields of an object have different names. -/
def IsStorable : Value → Prop
  | double x => x.isFinite
  | decimal d => Decimal.scaleFits d.scale
  | object _ _ fields _ => (fields.map (·.1)).Nodup
  | _ => True

/-- A float among the values is neither an infinity nor not-a-number. -/
def FloatIsFinite : Value → Prop
  | float x => x.isFinite
  | _ => True

/-! ### What is written -/

theorem toTaggedItems_eq_map (items : List Value) : toTaggedItems items = items.map toTagged := by
  induction items with
  | nil => rfl
  | cons item rest ih => rw [toTaggedItems, ih, List.map_cons]

theorem toTaggedEntries_eq_map (entries : List (Value × Value)) :
    toTaggedEntries entries =
      entries.map fun entry => .array [entry.1.toTagged, entry.2.toTagged] := by
  induction entries with
  | nil => rfl
  | cons entry rest ih => rw [toTaggedEntries, ih, List.map_cons]

theorem toTaggedFields_eq_map (fields : List (String × Value)) :
    toTaggedFields fields = fields.map fun field => (field.1, field.2.toTagged) := by
  induction fields with
  | nil => rfl
  | cons field rest ih => rw [toTaggedFields, ih, List.map_cons]

theorem toTaggedIdentity_eq (identity : Option Value) :
    toTaggedIdentity identity = (identity.map toTagged).getD .null := by
  cases identity <;> rfl

theorem canonical_tagged (tag : String) (body : Json) :
    (tagged tag body).canonical = tagged tag body.canonical := by
  simp [tagged, canonical_object, sortMembers, insertMember]

theorem canonical_record_congr {members others : List (String × Json)}
    (h : canonicalMembers others = canonicalMembers members) (tag : String) :
    (tagged tag (.object others)).canonical = (tagged tag (.object members)).canonical := by
  rw [canonical_tagged, canonical_tagged, canonical, canonical, h]

theorem toTagged_ne_null (value : Value) : value.toTagged ≠ .null := by
  cases value <;> exact Json.noConfusion

/-! ### Reading -/

open Reading

variable {value : Value} {fuel depth : ℕ} {tag : String} {body : Json}

/-- A place in a document is not too deep for a value, and all its floats can be written. -/
def Fits (value : Value) (depth : ℕ) : Prop :=
  value.written.depth < depth ∧ value.All FloatIsFinite

/-- A value is read, wherever it stands in a document, exactly if it fits there. -/
def Rereads (value : Value) : Prop :=
  ∀ fuel depth, 0 < depth → (value.written.cut depth).depth < fuel →
    Meets (readTagged fuel (value.written.cut depth)) (value.Fits depth) value.Restores

theorem rereads_null : Rereads .null := by
  intro fuel depth hdepth hfuel
  obtain ⟨fuel, rfl⟩ : ∃ k, fuel = k + 1 := ⟨fuel - 1, by omega⟩
  refine (Meets.pure ⟨.refl _, rfl⟩ : Meets (Pure.pure null) True (Restores .null)).congr ?_
  exact iff_of_true trivial ⟨hdepth, trivial, fun child hchild => by cases hchild⟩

theorem rereads_of_tagged (htagged : value.toTagged = tagged tag body)
    (hbody : ∀ fuel depth, 0 < depth → (body.canonical.cut depth).depth < fuel →
      Meets (readTagged (fuel + 1) (tagged tag (body.canonical.cut depth)))
        (body.canonical.depth < depth ∧ value.All FloatIsFinite) value.Restores) :
    value.Rereads := by
  intro fuel depth _ hfuel
  rw [written, htagged] at hfuel ⊢
  rw [Fits, written, htagged]
  exact Meets.tagged (fun _ => rfl) hfuel hbody

theorem rereads_of_leaf (htagged : value.toTagged = tagged tag body)
    (hleaf : body.canonical.depth = 0) (hchildren : value.children = [])
    (hread : ∀ fuel, Meets (readTagged (fuel + 1) (tagged tag body.canonical))
      value.FloatIsFinite value.Restores) : value.Rereads := by
  refine rereads_of_tagged htagged fun fuel depth hdepth _ => ?_
  rw [cut_eq_self (by omega), hleaf, and_iff_right hdepth, all_iff, hchildren]
  exact (hread fuel).congr (by simp)

theorem rereads_of_items {make : List Value → Value} {items : List Value}
    (htagged : ∀ items, (make items).toTagged = tagged tag (.array (toTaggedItems items)))
    (hgone : ∀ fuel, readTagged (fuel + 1) (tagged tag .unreadable) = failure)
    (hread : ∀ fuel found, readTagged (fuel + 1) (tagged tag (.array found)) =
      do return make (← found.mapM (readTagged fuel)))
    (hfinite : (make items).FloatIsFinite) (hchildren : (make items).children = items)
    (halike : ∀ others, List.Forall₂ Alike items others → (make items).Alike (make others))
    (hitems : ∀ item ∈ items, item.Rereads) : (make items).Rereads := by
  refine rereads_of_tagged (htagged items) fun fuel depth hdepth hfuel => ?_
  rw [toTaggedItems_eq_map] at hfuel ⊢
  have hvalue : Meets (readTagged (fuel + 1)
      (tagged tag ((Json.array (items.map toTagged)).canonical.cut depth)))
      (1 < depth ∧ ∀ item ∈ items, item.Fits (depth - 1))
      fun found => ∃ others, found = make others ∧ List.Forall₂ Restores items others := by
    refine Meets.array (m := fun body => readTagged (fuel + 1) (tagged tag body)) (hread fuel)
      (hgone fuel) fun hlt item hitem => hitems item hitem fuel _ (by omega) ?_
    exact depth_cut_of_item hfuel.le hlt (List.mem_map_of_mem hitem)
  refine (hvalue.congr ?_).imp ?_
  · rw [depth_canonical_array_lt_iff, List.forall_mem_map, all_iff, hchildren,
      and_iff_right hfinite, and_assoc]
    exact and_congr_right fun _ => forall₂_and
  · rintro _ ⟨others, rfl, hothers⟩
    refine ⟨halike others (hothers.imp fun _ _ h => h.1), ?_⟩
    have hwritten : others.map (canonical ∘ toTagged) = items.map (canonical ∘ toTagged) :=
      map_eq_map_of_forall₂ hothers fun _ _ h => h.2
    simp only [written, htagged, toTaggedItems_eq_map, canonical_tagged, canonical_array,
      List.map_map, hwritten]

theorem all_map_iff {p : Value → Prop} {entries : List (Value × Value)} :
    (map entries).All p ↔
      p (map entries) ∧ ∀ entry ∈ entries, entry.1.All p ∧ entry.2.All p := by
  rw [all_iff, children, List.forall_mem_append, List.forall_mem_map, List.forall_mem_map,
    forall₂_and]

/-- Reads the key and the value of an entry. -/
def readEntry (fuel : ℕ) : Json → Reading (Value × Value)
  | .array [key, value] => return (← readTagged fuel key, ← readTagged fuel value)
  | _ => failure

theorem written_map (entries : List (Value × Value)) :
    (map entries).written = tagged "Map" (.array
      (entries.map fun entry => .array [entry.1.written, entry.2.written])) := by
  simp [written, toTagged, toTaggedEntries_eq_map, canonical_tagged, Function.comp_def]

theorem rereads_map {entries : List (Value × Value)}
    (hentries : ∀ entry ∈ entries, ∀ value ∈ [entry.1, entry.2], value.Rereads) :
    (map entries).Rereads := by
  refine rereads_of_tagged rfl fun fuel depth hdepth hfuel => ?_
  rw [toTaggedEntries_eq_map] at hfuel ⊢
  have hread : ∀ found, readTagged (fuel + 1) (tagged "Map" (.array found)) =
      do return map (← found.mapM (readEntry fuel)) := fun _ => rfl
  have hvalue : Meets (readTagged (fuel + 1) (tagged "Map"
      ((Json.array (entries.map fun entry =>
        .array [entry.1.toTagged, entry.2.toTagged])).canonical.cut depth)))
      (1 < depth ∧ ∀ entry ∈ entries,
        1 < depth - 1 ∧ entry.1.Fits (depth - 1 - 1) ∧ entry.2.Fits (depth - 1 - 1))
      fun found => ∃ others, found = map others ∧
        List.Forall₂ (fun entry found => entry.1.Restores found.1 ∧ entry.2.Restores found.2)
          entries others := by
    refine Meets.array (m := fun body => readTagged (fuel + 1) (tagged "Map" body))
      hread rfl fun hlt entry hentry => ?_
    have hfuel' := depth_cut_of_item hfuel.le hlt (List.mem_map_of_mem hentry)
    refine Meets.pair (m := readEntry fuel) (c := (Fits · (depth - 1 - 1))) (r := Restores)
      toTagged (fun _ _ => rfl) rfl fun hlt' value hvalue => ?_
    refine hentries entry hentry value hvalue fuel _ (by omega) ?_
    exact depth_cut_of_item hfuel'.le hlt' (List.mem_map_of_mem (f := toTagged) hvalue)
  refine (hvalue.congr ?_).imp ?_
  · have hself : (map entries).FloatIsFinite := trivial
    rw [all_map_iff, and_iff_right hself, depth_canonical_array_lt_iff, List.forall_mem_map,
      and_assoc, ← forall₂_and]
    refine and_congr_right fun _ => forall₂_congr fun entry _ => ?_
    rw [depth_canonical_array_lt_iff, List.forall_mem_cons, List.forall_mem_singleton, and_assoc]
    exact and_congr_right fun _ => and_and_and_comm
  · rintro _ ⟨others, rfl, hothers⟩
    refine ⟨.map ?_ ?_, ?_⟩
    · rw [List.forall₂_map_left_iff, List.forall₂_map_right_iff]
      exact hothers.imp fun _ _ h => h.1.1
    · rw [List.forall₂_map_left_iff, List.forall₂_map_right_iff]
      exact hothers.imp fun _ _ h => h.2.1
    · rw [written_map, written_map, map_eq_map_of_forall₂ hothers fun _ _ h => ?_]
      rw [h.1.2, h.2.2]

theorem canonical_fields (fields : Bindings Value) :
    (Json.object (toTaggedFields fields)).canonical =
      .object ((sortMembers fields).map fun field => (field.1, field.2.written)) := by
  rw [toTaggedFields_eq_map, canonical_object, sortMembers_map, List.map_map]
  rfl

theorem rel_get?_of_forall₂ {fields found : Bindings Value}
    (h : List.Forall₂
      (fun field found => found.1 = field.1 ∧ field.2.Restores found.2) fields found)
    (name : String) : Option.Rel Alike (fields.get? name) (found.get? name) := by
  induction h with
  | nil => exact .none
  | @cons field other _ _ hfirst _ ih =>
    obtain ⟨hname, halike, -⟩ := hfirst
    rw [Bindings.get?, Bindings.get?, hname]
    split
    · exact .some halike
    · exact ih

theorem canonical_identity {identity found : Option Value}
    (h : Option.Rel Restores identity found) :
    (toTaggedIdentity found).canonical = (toTaggedIdentity identity).canonical := by
  cases h with
  | none => rfl
  | some h => exact h.2

theorem restores_object {fields found : Bindings Value} {identity identity' : Option Value}
    (hnodup : (fields.map (·.1)).Nodup)
    (hfields : List.Forall₂ (fun field found => found.1 = field.1 ∧ field.2.Restores found.2)
      (sortMembers fields) found)
    (hidentity : Option.Rel Restores identity identity') (id id' : InstanceId) (typeName : String) :
    (object id typeName fields identity).Restores
      (object id' typeName (Bindings.ofList found) identity') := by
  have hnames : found.map (·.1) = (sortMembers fields).map (·.1) :=
    map_eq_map_of_forall₂ hfields fun _ _ h => h.1
  have hascend : NamesAscend found := by
    have h := List.pairwise_map.mpr (namesAscend_sortMembers fields)
    rw [← hnames] at h
    exact List.pairwise_map.mp h
  rw [Bindings.ofList_eq_self hascend.nodup]
  refine ⟨.object (fun name => ?_) ?_, ?_⟩
  · rw [Bindings.get?_perm (sortMembers_perm hnodup).symm hnodup]
    exact rel_get?_of_forall₂ hfields name
  · exact rel_imp (fun _ _ h => h.1) hidentity
  · have hwritten : (Json.object (toTaggedFields found)).canonical =
        (Json.object (toTaggedFields fields)).canonical := by
      rw [canonical_fields, canonical_fields, sortMembers_of_namesAscend hascend]
      refine congrArg Json.object (map_eq_map_of_forall₂ hfields fun field other h => ?_)
      rw [h.1, h.2.2]
    exact canonical_record_congr
      (by simp only [canonicalMembers, hwritten, canonical_identity hidentity]) _

/-- Reads what stands under the tag of an object. -/
def readObject (fuel : ℕ) (body : Json) : Reading Value := do
  match ← body.record? objectShape with
  | [some (.string typeName), fields, identity] =>
    let members ← Json.withDefault (fun json => json.members?) [] fields
    let fields ← members.mapM fun (name, value) => return (name, ← readTagged fuel value)
    let identity ← Json.optional (readTagged fuel) identity
    return object (← Reading.fresh) typeName (Bindings.ofList fields) identity
  | _ => failure

theorem meets_fields {fields : Bindings Value} (hnodup : (fields.map (·.1)).Nodup)
    (h : ∀ field ∈ fields,
      Meets (readTagged fuel (field.2.written.cut depth)) (field.2.Fits depth) field.2.Restores) :
    Meets (((sortMembers (toTaggedFields fields)).map fun member =>
        (member.1, member.2.canonical.cut depth)).mapM
          fun (name, value) => return (name, ← readTagged fuel value))
      (∀ field ∈ fields, field.2.Fits depth)
      (List.Forall₂ (fun field found => found.1 = field.1 ∧ field.2.Restores found.2)
        (sortMembers fields)) := by
  rw [toTaggedFields_eq_map, sortMembers_map, List.map_map]
  have hread : Meets (((sortMembers fields).map fun field =>
      (field.1, field.2.toTagged.canonical.cut depth)).mapM
        fun (name, value) => return (name, ← readTagged fuel value))
      (∀ field ∈ sortMembers fields, field.2.Fits depth)
      (List.Forall₂ (fun field found => found.1 = field.1 ∧ field.2.Restores found.2)
        (sortMembers fields)) :=
    Meets.mapM_map fun field hfield =>
      Meets.map (h field (mem_sortMembers hfield)) fun found hfound => ⟨rfl, hfound⟩
  refine hread.congr (forall_congr' fun field => imp_congr_left ?_)
  exact (sortMembers_perm hnodup).mem_iff

theorem all_object_iff {p : Value → Prop} {id : InstanceId} {typeName : String}
    {fields : Bindings Value} {identity : Option Value} :
    (object id typeName fields identity).All p ↔ p (object id typeName fields identity) ∧
      (∀ field ∈ fields, field.2.All p) ∧ ∀ value ∈ identity, value.All p := by
  rw [all_iff, children, List.forall_mem_append, List.forall_mem_map]
  simp only [Option.mem_toList, Option.mem_def]

theorem depth_identity_lt_iff {identity : Option Value} (h : 0 < depth) :
    (toTaggedIdentity identity).canonical.depth < depth ↔
      ∀ value ∈ identity, value.written.depth < depth := by
  cases identity with
  | none => exact iff_of_true h (by simp)
  | some value => simp [toTaggedIdentity, written]

theorem rereads_object {id : InstanceId} {typeName : String} {fields : Bindings Value}
    {identity : Option Value} (hnodup : (fields.map (·.1)).Nodup)
    (hfields : ∀ field ∈ fields, field.2.Rereads) (hidentity : ∀ value ∈ identity, value.Rereads) :
    (object id typeName fields identity).Rereads := by
  refine rereads_of_tagged rfl fun fuel depth hdepth hfuel => ?_
  have hnames : ((toTaggedFields fields).map (·.1)).Nodup := by
    rwa [toTaggedFields_eq_map, List.map_map]
  have hobject : ∀ body, readTagged (fuel + 1) (tagged "Object" body) = readObject fuel body :=
    fun _ => rfl
  rw [hobject]
  refine Meets.record (by simp) objectShape hfuel.le fun hlt hmember => ?_
  simp only [List.forall_mem_cons] at hmember ⊢
  obtain ⟨-, hbelow, hbelow', -⟩ := hmember
  refine Meets.congr (c := 1 < depth - 1 ∧ (∀ field ∈ fields, field.2.Fits (depth - 1 - 1)) ∧
    ∀ value ∈ identity, value.Fits (depth - 1)) ?_ ?_
  · refine Meets.bind (Meets.lift (offers_members _ _)).known fun members ⟨hlt', hmembers⟩ => ?_
    rw [hmembers]
    refine Meets.bind (meets_fields hnodup fun field hfield => ?_) fun found hfound => ?_
    · have hmem : (field.1, field.2.toTagged) ∈ toTaggedFields fields := by
        rw [toTaggedFields_eq_map]
        exact List.mem_map_of_mem hfield
      exact hfields field hfield fuel _ (by omega) (depth_cut_of_member hnames hbelow.le hlt' hmem)
    · have hread : Meets (Json.optional (readTagged fuel)
          (some ((toTaggedIdentity identity).canonical.cut (depth - 1))))
          (∀ value ∈ identity, value.Fits (depth - 1)) (Option.Rel Restores identity) := by
        rw [toTaggedIdentity_eq] at hbelow' ⊢
        refine Meets.optional (fun value _ => toTagged_ne_null value) fun value hvalue => ?_
        obtain rfl := hvalue
        exact hidentity value rfl fuel _ (by omega) hbelow'
      refine (Meets.bind hread fun identity' hidentity' => Meets.map Meets.fresh fun id' _ =>
        restores_object hnodup hfound hidentity' _ _ _).congr (and_iff_left trivial)
  · have hself : (object id typeName fields identity).FloatIsFinite := trivial
    have hname : (Json.string typeName).canonical.depth < depth - 1 := Nat.sub_pos_of_lt hlt
    rw [depth_canonical_object_lt_iff hnames, toTaggedFields_eq_map, List.forall_mem_map,
      depth_identity_lt_iff (by omega), and_iff_right hname, all_object_iff, and_iff_right hself]
    simp only [Fits, written, forall₂_and]
    tauto

/-! ### Values without parts -/

theorem rereads_of_pure (htagged : value.toTagged = tagged tag body)
    (hleaf : body.canonical.depth = 0) (hchildren : value.children = [])
    (hread : ∀ fuel, readTagged (fuel + 1) (tagged tag body.canonical) = pure value)
    (hfinite : value.FloatIsFinite) : value.Rereads := by
  refine rereads_of_leaf htagged hleaf hchildren fun fuel => ?_
  rw [hread]
  exact (Meets.pure ⟨.refl value, rfl⟩).congr (iff_of_true trivial hfinite)

theorem rereads_char (c : Char) : (char c).Rereads := by
  have htagged : (char c).toTagged = tagged "Char" (.string c.toString) := rfl
  refine rereads_of_pure htagged rfl rfl (fun fuel => ?_) trivial
  have htext : c.toString.toList = [c] := by simp
  have hcanonical : (Json.string c.toString).canonical = .string c.toString := rfl
  rw [hcanonical, readTagged, bind_variant?]
  simp only [htext]

theorem rereads_integer (bits : ℕ) (make : Int → Value) {n : Int} (hmake : make n = value)
    (hlow : -2 ^ (bits - 1) ≤ n) (hhigh : n < 2 ^ (bits - 1))
    (htagged : value.toTagged = tagged tag (.ofInt n)) (hchildren : value.children = [])
    (hfinite : value.FloatIsFinite)
    (hread : ∀ fuel body, readTagged (fuel + 1) (tagged tag body) =
      do return make (← body.signed? bits)) : value.Rereads := by
  refine rereads_of_pure htagged rfl hchildren (fun fuel => ?_) hfinite
  have hsigned : (ofInt n).canonical.signed? bits = some n := by
    change (if _ then some n else none) = _
    rw [if_pos]
    rw [Bool.and_eq_true, decide_eq_true_iff, decide_eq_true_iff]
    have hbound : ((Nat.pow 2 (bits - 1) : ℕ) : Int) = 2 ^ (bits - 1) := Nat.cast_pow 2 _
    omega
  rw [hread, hsigned, ← hmake]
  rfl

theorem rereads_float (x : Single) : (float x).Rereads := by
  by_cases hfinite : x.isFinite
  · have htagged : (float x).toTagged = tagged "Float" (.number (.single x)) := by
      rw [toTagged, ofSingle, if_pos hfinite]
    refine rereads_of_pure htagged rfl rfl (fun fuel => ?_) hfinite
    have hsame := Binary.convert_convert BinaryFormat.single_widens_double hfinite
    exact congrArg (fun x => (pure (float x) : Reading Value)) hsame
  · have htagged : (float x).toTagged = tagged "Float" .null := by
      rw [toTagged, ofSingle, if_neg hfinite]
    have hread : ∀ fuel, readTagged (fuel + 1) (tagged "Float" Json.null) = failure := fun _ => rfl
    exact rereads_of_leaf htagged rfl rfl fun fuel => (hread fuel).symm ▸ Meets.failure hfinite

theorem rereads_double {x : Double} (h : x.isFinite) : (double x).Rereads := by
  have htagged : (double x).toTagged = tagged "Double" (.number (.double x)) := by
    rw [toTagged, ofDouble, if_pos h]
  refine rereads_of_pure htagged rfl rfl (fun fuel => ?_) trivial
  exact congrArg (fun x => (pure (double x) : Reading Value)) (Binary.convert_self h)

theorem rereads_decimal {d : Decimal} (h : Decimal.scaleFits d.scale) : (decimal d).Rereads := by
  refine rereads_of_leaf rfl rfl rfl fun fuel => ?_
  have hread : Meets (do return decimal (← Decimal.ofString? d.toText) : Reading Value) True
      (decimal d).Restores := by
    rw [Decimal.ofString?_toText h]
    refine Meets.pure ⟨.decimal (Decimal.beq_iff.mpr d.toRat_settled.symm), ?_⟩
    rw [written, written, toTagged, toTagged, d.toText_settled]
  exact hread

theorem rereads_bigInteger (n : Int) : (bigInteger n).Rereads := by
  refine rereads_of_tagged rfl fun fuel depth hdepth hfuel => ?_
  have hread : Meets (do return bigInteger (← ofLimbsJson? ((limbsJson n).canonical.cut depth)))
      ((limbsJson n).canonical.depth < depth) (bigInteger n).Restores := by
    refine Meets.map (Meets.lift (offers_limbs n depth)) fun found hfound => ?_
    rw [hfound]
    exact ⟨.refl _, rfl⟩
  have hfinite : (bigInteger n).All FloatIsFinite := ⟨trivial, fun child hchild => by cases hchild⟩
  exact hread.congr (and_iff_left hfinite).symm

/-- A storable value is read from what is written of it exactly if this fits in its place. -/
theorem rereads_of_isStorable (h : value.All IsStorable) : value.Rereads := by
  induction h with
  | @node value hself hbelow ih =>
    cases value with
    | null => exact rereads_null
    | boolean b => exact rereads_of_pure rfl rfl rfl (fun _ => rfl) trivial
    | char c => exact rereads_char c
    | byte n =>
      exact rereads_integer 8 (byte <| .ofInt ·) (congrArg byte n.ofInt_toInt) n.le_toInt n.toInt_lt
        rfl rfl trivial fun _ _ => rfl
    | short n =>
      exact rereads_integer 16 (short <| .ofInt ·) (congrArg short n.ofInt_toInt) n.le_toInt
        n.toInt_lt rfl rfl trivial fun _ _ => rfl
    | int n =>
      exact rereads_integer 32 (int <| .ofInt ·) (congrArg int n.ofInt_toInt) n.le_toInt n.toInt_lt
        rfl rfl trivial fun _ _ => rfl
    | long n =>
      exact rereads_integer 64 (long <| .ofInt ·) (congrArg long n.ofInt_toInt) n.le_toInt
        n.toInt_lt rfl rfl trivial fun _ _ => rfl
    | bigInteger n => exact rereads_bigInteger n
    | float x => exact rereads_float x
    | double x => exact rereads_double hself
    | decimal d => exact rereads_decimal hself
    | string s => exact rereads_of_pure rfl rfl rfl (fun _ => rfl) trivial
    | array items =>
      exact rereads_of_items (fun _ => rfl) (fun _ => rfl) (fun _ _ => rfl) trivial rfl
        (fun _ => .array) ih
    | list items =>
      exact rereads_of_items (fun _ => rfl) (fun _ => rfl) (fun _ _ => rfl) trivial rfl
        (fun _ => .list) ih
    | set items =>
      exact rereads_of_items (fun _ => rfl) (fun _ => rfl) (fun _ _ => rfl) trivial rfl
        (fun _ => .set) ih
    | map entries =>
      refine rereads_map fun entry hentry => ?_
      rw [List.forall_mem_cons, List.forall_mem_singleton]
      exact ⟨ih _ (List.mem_append_left _ (List.mem_map_of_mem hentry)),
        ih _ (List.mem_append_right _ (List.mem_map_of_mem hentry))⟩
    | object id typeName fields identity =>
      exact rereads_object hself
        (fun field hfield => ih _ (List.mem_append_left _ (List.mem_map_of_mem hfield)))
        (fun value hvalue => ih _ (List.mem_append_right _ (Option.mem_toList.mpr hvalue)))
    | type name => exact rereads_of_pure rfl rfl rfl (fun _ => rfl) trivial

theorem meets_ofTagged? (h : value.All IsStorable) (hdepth : 0 < depth) :
    Meets (ofTagged? (value.toTagged.canonical.cut depth)) (value.Fits depth) value.Restores :=
  rereads_of_isStorable h _ _ hdepth (Nat.lt_succ_self _)

end Value

end ObjectQuery
