import ObjectQuery.Proofs.Json.Members
import ObjectQuery.Proofs.Value.Comparability
import ObjectQuery.Proofs.Value.Numeral
import ObjectQuery.Value.Plain

/-!
What plain JSON shows of a value. A map is written with the texts of its keys as names, and of keys
of one text the last is written. Main statement: no entry is lost at any level if and only if the
keys of each map have different texts, as they have if no two of them are equal and all are of one
sort: numbers, texts and characters, truth values, or types.
-/

namespace ObjectQuery

/-! ### Places -/

namespace Json

/-- A step from a tree to one right below it. -/
inductive Step where
  | item (index : ℕ)
  | member (name : String)

def child? : Json → Step → Option Json
  | array items, .item index => items[index]?
  | object members, .member name => Bindings.get? members name
  | _, _ => none

/-- The tree that stands at a place, told by the steps that lead to it. -/
def at? (json : Json) (path : List Step) : Option Json := path.foldlM child? json

theorem at?_cons (json : Json) (step : Step) (path : List Step) :
    json.at? (step :: path) = (json.child? step).bind (·.at? path) := rfl

end Json

namespace Value

open Json

variable {a b value part child : Value} {step : Step} {path : List Step}

/-- What stands right below a value, one step down in its JSON: an item, the value of an entry under
the text of its key, or a field under its name. -/
inductive Child : Value → Step → Value → Prop where
  | item {value child : Value} {items : List Value} {index : ℕ}
      (helements : value.elements? = some items) (hitem : items[index]? = some child) :
      Child value (.item index) child
  | entry {entries : List (Value × Value)} {key child : Value} (h : (key, child) ∈ entries) :
      Child (map entries) (.member key.toText) child
  | field {id : InstanceId} {typeName name : String} {fields : List (String × Value)}
      {identity : Option Value} {child : Value} (h : (name, child) ∈ fields) :
      Child (object id typeName fields identity) (.member name) child

/-- The part of a value that its JSON shows at a place. -/
inductive Holds : Value → List Step → Value → Prop where
  | here (value : Value) : Holds value [] value
  | down {value child part : Value} {step : Step} {path : List Step}
      (hchild : value.Child step child) (hpart : Holds child path part) :
      Holds value (step :: path) part

/-- All parts that the JSON of a value shows are as told. -/
def Throughout (p : Value → Prop) (value : Value) : Prop :=
  ∀ path part, value.Holds path part → p part

theorem throughout_iff {p : Value → Prop} :
    value.Throughout p ↔ p value ∧ ∀ step child, value.Child step child → child.Throughout p := by
  constructor
  · intro h
    exact ⟨h [] value (.here value), fun step child hchild path part hpart =>
      h (step :: path) part (.down hchild hpart)⟩
  · rintro ⟨hself, hbelow⟩ path part hpart
    cases hpart with
    | here => exact hself
    | down hchild hpart => exact hbelow _ _ hchild _ _ hpart

theorem Child.mem_children (h : value.Child step child) : child ∈ value.children := by
  cases h with
  | item helements hitem =>
    cases value with
    | array items | list items | set items =>
      obtain rfl := Option.some.inj helements
      exact List.mem_of_getElem? hitem
    | _ => cases helements
  | entry h => exact List.mem_append_right _ (List.mem_map_of_mem h)
  | field h => exact List.mem_append_left _ (List.mem_map_of_mem h)

theorem throughout_of_leaf {p : Value → Prop} (hself : p value) (hleaf : value.children = []) :
    value.Throughout p := by
  refine throughout_iff.mpr ⟨hself, fun step child hchild => ?_⟩
  have hmem := hchild.mem_children
  rw [hleaf] at hmem
  cases hmem

theorem throughout_map {p : Value → Prop} {entries : List (Value × Value)} :
    (map entries).Throughout p ↔ p (map entries) ∧ ∀ entry ∈ entries, entry.2.Throughout p := by
  rw [throughout_iff]
  refine and_congr_right fun _ => ⟨fun h entry hentry => h _ _ (.entry hentry),
    fun h step child hchild => ?_⟩
  cases hchild with
  | item helements => cases helements
  | entry hentry => exact h _ hentry

theorem Throughout.imp {p q : Value → Prop} (h : value.Throughout p)
    (hpq : ∀ part, p part → q part) :
    value.Throughout q :=
  fun path part hpart => hpq part (h path part hpart)

/-! ### Members -/

@[simp] theorem toJsonItems_eq_map (items : List Value) : toJsonItems items = items.map toJson := by
  induction items with
  | nil => rfl
  | cons item rest ih => simp [toJsonItems, ih]

@[simp] theorem toJsonEntries_eq_map (entries : List (Value × Value)) :
    toJsonEntries entries = entries.map fun entry => (entry.1.toText, entry.2.toJson) := by
  induction entries with
  | nil => rfl
  | cons entry rest ih => simp [toJsonEntries, ih]

@[simp] theorem toJsonFields_eq_map (fields : List (String × Value)) :
    toJsonFields fields = fields.map fun field => (field.1, field.2.toJson) := by
  induction fields with
  | nil => rfl
  | cons field rest ih => simp [toJsonFields, ih]

/-- The keys of a map have different texts. -/
def TextsApart : Value → Prop
  | map entries => (entries.map (·.1.toText)).Nodup
  | _ => True

/-- The fields of an object have different names. -/
def FieldsApart : Value → Prop
  | object _ _ fields _ => (fields.map (·.1)).Nodup
  | _ => True

/-- A map is written with a member for each entry, and the value of each entry stands under the text
of its key. -/
def KeepsEntries : Value → Prop
  | map entries => ∃ members, (map entries).toJson = .object members ∧
      members.length = entries.length ∧
      ∀ entry ∈ entries, (entry.1.toText, entry.2.toJson) ∈ members
  | _ => True

/-- A map is written with a member for each text of a key, and under a text stands the value of the
last entry with such a key. -/
def KeepsLast : Value → Prop
  | map entries => ∃ members, (map entries).toJson = .object members ∧
      members.length = (entries.map (·.1.toText)).dedup.length ∧
      ∀ name, Bindings.get? members name =
        (entries.reverse.find? (·.1.toText == name)).map (·.2.toJson)
  | _ => True

theorem map_fst_rendered (entries : List (Value × Value)) :
    (entries.map fun entry => (entry.1.toText, entry.2.toJson)).map (·.1) =
      entries.map (·.1.toText) := by
  simp

theorem keepsLast (value : Value) : value.KeepsLast := by
  cases value with
  | map entries =>
    refine ⟨_, rfl, ?_, fun name => ?_⟩
    · rw [length_sortMembers, toJsonEntries_eq_map, map_fst_rendered]
    · rw [get?_sortMembers, toJsonEntries_eq_map, ← List.map_reverse, Bindings.get?_eq_find?,
        List.find?_map, Option.map_map]
      rfl
  | _ => trivial

theorem keepsEntries_iff : value.KeepsEntries ↔ value.TextsApart := by
  cases value with
  | map entries =>
    have hnames := map_fst_rendered entries
    constructor
    · rintro ⟨members, hmembers, hlength, -⟩
      have hsorted : sortMembers (toJsonEntries entries) = members := Json.object.inj hmembers
      rw [← hsorted, length_sortMembers, toJsonEntries_eq_map, hnames] at hlength
      -- As many different texts as keys are all of the texts.
      rw [TextsApart, ← List.dedup_eq_self]
      exact (List.dedup_sublist _).eq_of_length (hlength.trans (List.length_map _).symm)
    · intro h
      rw [TextsApart, ← hnames] at h
      have hperm := sortMembers_perm h
      refine ⟨_, rfl, ?_, fun entry hentry => ?_⟩
      · rw [toJsonEntries_eq_map, hperm.length_eq, List.length_map]
      · rw [toJsonEntries_eq_map, hperm.mem_iff]
        exact List.mem_map_of_mem hentry
  | _ => exact Iff.rfl

theorem child?_toJson (hchild : value.Child step child) (htexts : value.TextsApart)
    (hfields : value.FieldsApart) : value.toJson.child? step = some child.toJson := by
  cases hchild with
  | item helements hitem =>
    cases value with
    | array items | list items | set items =>
      obtain rfl := Option.some.inj helements
      simp [toJson, child?, hitem]
    | _ => cases helements
  | @entry entries key child h =>
    rw [TextsApart, ← map_fst_rendered] at htexts
    rw [toJson, child?, get?_sortMembers, toJsonEntries_eq_map]
    exact Bindings.get?_reverse_of_mem htexts (List.mem_map_of_mem h)
  | @field id typeName name fields identity child h =>
    have hnames : (fields.map fun field => (field.1, field.2.toJson)).map (·.1) =
        fields.map (·.1) := by simp
    rw [FieldsApart, ← hnames] at hfields
    -- The type stands before the fields, so that a field is written also if it has the same name.
    rw [toJson, child?, get?_sortMembers, toJsonFields_eq_map, List.reverse_cons,
      Bindings.get?_append, Bindings.get?_reverse_of_mem hfields (List.mem_map_of_mem h),
      Option.some_or]

theorem at?_toJson (hpart : value.Holds path part) (htexts : value.Throughout TextsApart)
    (hfields : value.Throughout FieldsApart) : value.toJson.at? path = some part.toJson := by
  induction hpart with
  | here => rfl
  | down hchild _ ih =>
    rw [throughout_iff] at htexts hfields
    rw [at?_cons, child?_toJson hchild htexts.1 hfields.1]
    exact ih (htexts.2 _ _ hchild) (hfields.2 _ _ hchild)

/-! ### Keys of one sort -/

/-- Keys of one sort: texts and characters, truth values, types, or numbers, but neither
not-a-number nor a single and a double that parts it from its digits. -/
inductive Akin : Value → Value → Prop where
  | numbers {a b : Value} (ha : a.isNumeric) (hb : b.isNumeric) (hafits : a.ScaleFits)
      (hbfits : b.ScaleFits) (hnan : a.binary? ≠ some .nan) (hparted : ¬ Parted a b) : Akin a b
  | texts {a b : Value} {s t : String} (ha : TextMethod.text? a = some s)
      (hb : TextMethod.text? b = some t) : Akin a b
  | booleans (p q : Bool) : Akin (boolean p) (boolean q)
  | types (m n : String) : Akin (type m) (type n)

theorem toText_of_text? {s : String} (h : TextMethod.text? value = some s) : value.toText = s := by
  cases value <;> first | exact Option.some.inj h | cases h

theorem Akin.looseEq_of_toText (h : Akin a b) (htext : a.toText = b.toText) : a.looseEq b := by
  cases h with
  | numbers ha hb hafits hbfits hnan hparted =>
    exact looseEq_of_numbers ha hb hafits hbfits hnan hparted htext
  | texts ha hb =>
    rw [toText_of_text? ha, toText_of_text? hb] at htext
    rw [looseEq_eq_of_text? ha hb, htext, beq_self_eq_true]
  | booleans p q => cases p <;> cases q <;> first | rfl | exact absurd htext (by decide)
  | types m n =>
    have hname : m = n := (String.append_right_inj _).mp htext
    simp [looseEq, strictEq, isNumeric, isIntegral, hname]

/-- The keys of a map are of one sort, and no two of them are equal. -/
def KeysDiffer : Value → Prop
  | map entries => entries.Pairwise fun entry later =>
      Akin entry.1 later.1 ∧ entry.1.looseEq later.1 = false
  | _ => True

theorem textsApart_of_keysDiffer (h : value.KeysDiffer) : value.TextsApart := by
  cases value with
  | map entries =>
    refine List.pairwise_map.mpr (List.Pairwise.imp ?_ h)
    rintro entry later ⟨hakin, hdiffer⟩ htext
    rw [hakin.looseEq_of_toText htext] at hdiffer
    cases hdiffer
  | _ => trivial

/-! ### All levels -/

/-- Every part of a value stands in its JSON at its place, and every map among them is written with
all its entries. -/
def WrittenWhole (value : Value) : Prop :=
  ∀ path part, value.Holds path part → value.toJson.at? path = some part.toJson ∧ part.KeepsEntries

theorem writtenWhole_of_textsApart (hfields : value.Throughout FieldsApart)
    (htexts : value.Throughout TextsApart) : value.WrittenWhole :=
  fun path part hpart =>
    ⟨at?_toJson hpart htexts hfields, keepsEntries_iff.mpr (htexts path part hpart)⟩

/-- Of the entries of a map with keys of one text the last is written, and so nothing is lost of a
value at any level if and only if the keys of each of its maps have different texts. They have them
if they are of one sort and no two of them are equal. -/
theorem writtenWhole_iff_textsApart (value : Value) (hfields : value.Throughout FieldsApart) :
    value.Throughout KeepsLast ∧
      (value.WrittenWhole ↔ value.Throughout TextsApart) ∧
      (value.Throughout KeysDiffer → value.WrittenWhole) := by
  refine ⟨fun _ part _ => keepsLast part, ⟨fun h path part hpart => ?_,
    writtenWhole_of_textsApart hfields⟩, fun h => ?_⟩
  · exact keepsEntries_iff.mp (h path part hpart).2
  · exact writtenWhole_of_textsApart hfields (h.imp fun _ => textsApart_of_keysDiffer)

/-- A map of numbers in a map of texts and characters is written whole. -/
theorem writtenWhole_iff_textsApart_nested :
    let inner : Value := map [(int 1, null), (long 2, null)]
    let value : Value := map [(string "a", inner), (char 'b', null)]
    (value.Throughout FieldsApart ∧ value.Throughout KeysDiffer) ∧ value.WrittenWhole := by
  intro inner value
  have hboth : ∀ {p : Value → Prop}, p value → p inner → p null → value.Throughout p := by
    intro p hvalue hinner hnull
    have hleaf : null.Throughout p := throughout_of_leaf hnull rfl
    refine throughout_map.mpr ⟨hvalue, List.forall_mem_cons.mpr ⟨?_, by simpa using hleaf⟩⟩
    exact throughout_map.mpr ⟨hinner, by simpa using hleaf⟩
  have hfields : value.Throughout FieldsApart := hboth trivial trivial trivial
  have htexts : Akin (string "a") (char 'b') := .texts rfl rfl
  have hnumbers : Akin (int 1) (long 2) := .numbers rfl rfl trivial trivial nofun id
  have hkeys : value.Throughout KeysDiffer :=
    hboth (List.pairwise_pair.mpr ⟨htexts, rfl⟩) (List.pairwise_pair.mpr ⟨hnumbers, rfl⟩) trivial
  exact ⟨⟨hfields, hkeys⟩, (writtenWhole_iff_textsApart value hfields).2.2 hkeys⟩

/-- The keys `1` and `"1"` are not equal, but of their entries only the later one is written. -/
theorem entry_lost_by_text :
    let value : Value := map [(int 1, string "a"), (string "1", string "b")]
    ((int 1).looseEq (string "1") = false ∧ (string "1").looseEq (int 1) = false) ∧
      value.toJson = .object [("1", .string "b")] ∧ ¬ value.KeepsEntries := by
  refine ⟨⟨rfl, rfl⟩, rfl, ?_⟩
  rintro ⟨members, hmembers, hlength, -⟩
  obtain rfl : [("1", Json.string "b")] = members := Json.object.inj hmembers
  cases hlength

end Value

end ObjectQuery
