import Mathlib
import ObjectQuery.Proofs.Value.Symmetry
import ObjectQuery.Store

/-!
What a store holds after a sequence of changes. Rows are found by the display text of an identity.
Main statement: they are the rows of an identity exactly where display texts tell identities apart
as strict equality does.
-/

namespace ObjectQuery

namespace ObjectStore

/-! ### One row -/

theorem row?_insertRow_self (store : ObjectStore) (key : RowKey) (row : List Value) :
    row? { store with rows := insertRow key row store.rows } key = some row := by
  obtain ⟨layouts, rows⟩ := store
  induction rows with
  | nil => simp [row?, insertRow]
  | cons entry rest ih =>
    by_cases h : entry.1 = key
    · simp [row?, insertRow, h]
    · simpa [row?, insertRow, h] using ih

theorem row?_insertRow_of_ne (store : ObjectStore) {key other : RowKey} (row : List Value)
    (h : key ≠ other) :
    row? { store with rows := insertRow key row store.rows } other = store.row? other := by
  obtain ⟨layouts, rows⟩ := store
  induction rows with
  | nil => simp [row?, insertRow, h]
  | cons entry rest ih =>
    by_cases hentry : entry.1 = key
    · simp [row?, insertRow, hentry, h]
    · by_cases hother : entry.1 = other
      · simp [row?, insertRow, hother, Ne.symm h]
      · simpa [row?, insertRow, hentry, hother] using ih

theorem row?_of_put {store after : ObjectStore} {typeName : String} {identity : Value}
    {row : List Value} (h : store.put typeName identity row = .ok after) (key : RowKey) :
    after.row? key = if key = ⟨typeName, identity.toText⟩ then some row else store.row? key := by
  rw [put] at h
  split at h
  · cases h
  · split at h
    · obtain rfl := Except.ok.inj h
      split
      · rename_i hkey
        rw [hkey]
        exact row?_insertRow_self store _ row
      · rename_i hkey
        exact row?_insertRow_of_ne store row (Ne.symm hkey)
    · cases h

/-! ### Histories -/

/-- A call that changes a store. -/
inductive Change where
  | defineLayout (typeName : String) (fields : List String)
  | put (typeName : String) (identity : Value) (row : List Value)

/-- The store behind a change; one that it refuses leaves it as it was. -/
def change (store : ObjectStore) : Change → ObjectStore
  | .defineLayout typeName fields => store.defineLayout typeName fields
  | .put typeName identity row => (store.put typeName identity row).toOption.getD store

def changeAll (store : ObjectStore) (changes : List Change) : ObjectStore :=
  changes.foldl change store

/-- A row that was put, with the type and the identity that it was put for. -/
structure Entry where
  typeName : String
  identity : Value
  row : List Value

/-- The puts among changes that the store accepts, in order. -/
def accepted (store : ObjectStore) : List Change → List Entry
  | [] => []
  | .defineLayout typeName fields :: rest => accepted (store.defineLayout typeName fields) rest
  | .put typeName identity row :: rest =>
    match store.put typeName identity row with
    | .ok after => ⟨typeName, identity, row⟩ :: accepted after rest
    | .error _ => accepted store rest

/-- The row that was put last for a type and for an identity as told. -/
def lastRow? (typeName : String) (same : Value → Bool) (entries : List Entry) :
    Option (List Value) :=
  (entries.reverse.find? fun entry => entry.typeName == typeName && same entry.identity).map (·.row)

/-- What is read at an index of the row of an object, if there is one. -/
def read (typeName : String) (identity : Value) (index : Nat) :
    Option (List Value) → Except StoreError Value
  | none => .error (.noState typeName identity.toText)
  | some row =>
    match row[index]? with
    | none => .error (.noField typeName index)
    | some value => .ok value

theorem lastRow?_cons (typeName : String) (same : Value → Bool) (entry : Entry)
    (entries : List Entry) :
    lastRow? typeName same (entry :: entries) =
      (lastRow? typeName same entries).or
        (if entry.typeName == typeName && same entry.identity then some entry.row else none) := by
  rw [lastRow?, lastRow?, List.reverse_cons, List.find?_append]
  cases entries.reverse.find? fun entry => entry.typeName == typeName && same entry.identity with
  | some found => rfl
  | none =>
    rw [Option.none_or, List.find?_singleton]
    split <;> rfl

theorem lastRow?_congr {typeName : String} {same same' : Value → Bool} {entries : List Entry}
    (h : ∀ entry ∈ entries, entry.typeName = typeName →
      same entry.identity = same' entry.identity) :
    lastRow? typeName same entries = lastRow? typeName same' entries := by
  induction entries with
  | nil => rfl
  | cons entry rest ih =>
    rw [lastRow?_cons, lastRow?_cons, ih fun other hother =>
      h other (List.mem_cons_of_mem _ hother)]
    by_cases htype : entry.typeName = typeName
    · rw [h entry List.mem_cons_self htype]
    · simp [htype]

/-- A store holds under a key the row that was put last for an identity of that text. -/
theorem row?_changeAll (store : ObjectStore) (changes : List Change) (typeName text : String) :
    (store.changeAll changes).row? ⟨typeName, text⟩ =
      (lastRow? typeName (·.toText == text) (store.accepted changes)).or
        (store.row? ⟨typeName, text⟩) := by
  induction changes generalizing store with
  | nil => rfl
  | cons head rest ih =>
    rw [changeAll, List.foldl_cons, ← changeAll, ih]
    cases head with
    | defineLayout other fields => rfl
    | put other identity row =>
      rw [change, accepted]
      cases hput : store.put other identity row with
      | error error => rfl
      | ok after =>
        have hkey : (⟨typeName, text⟩ : RowKey) = ⟨other, identity.toText⟩ ↔
            other == typeName && identity.toText == text := by
          rw [RowKey.mk.injEq, Bool.and_eq_true, beq_iff_eq, beq_iff_eq, eq_comm (a := typeName),
            eq_comm (a := text)]
        rw [Except.toOption, Option.getD_some, row?_of_put hput, lastRow?_cons, Option.or_assoc]
        simp only [hkey]
        split <;> rfl

theorem fetch_changeAll (changes : List Change) {object : Object} {identity : Value}
    (hidentity : object.identity = some identity) (index : Nat) :
    (empty.changeAll changes).fetch object index =
      read object.typeName identity index
        (lastRow? object.typeName (·.toText == identity.toText) (empty.accepted changes)) := by
  have hempty : empty.row? ⟨object.typeName, identity.toText⟩ = none := rfl
  rw [fetch, hidentity]
  simp only [row?_changeAll, hempty, Option.or_none]
  rfl

theorem fetch_change_put (store : ObjectStore) {typeName : String} {other identity : Value}
    {object : Object} (hidentity : object.identity = some identity)
    (h : typeName = object.typeName → other.toText ≠ identity.toText) (row : List Value)
    (index : Nat) :
    (store.change (.put typeName other row)).fetch object index = store.fetch object index := by
  rw [change]
  cases hput : store.put typeName other row with
  | error error => rfl
  | ok after =>
    have hkey : (⟨object.typeName, identity.toText⟩ : RowKey) ≠ ⟨typeName, other.toText⟩ := by
      intro hkey
      obtain ⟨htype, htext⟩ := RowKey.mk.inj hkey
      exact h htype.symm htext.symm
    rw [fetch, fetch, hidentity, Except.toOption, Option.getD_some]
    simp only [row?_of_put hput, if_neg hkey]

/-! ### Identities -/

/-- Rows are kept by identity among the given identities: what is fetched for an object comes from
the row that was put last for a strictly equal identity, and a put for another identity does not
matter to it. -/
def KeptByIdentity (identities : Value → Prop) : Prop :=
  ∀ (changes : List Change) (object : Object) (identity : Value),
    (∀ entry ∈ empty.accepted changes, entry.typeName = object.typeName →
      identities entry.identity) →
    object.identity = some identity → identities identity →
    (∀ index, (empty.changeAll changes).fetch object index =
      read object.typeName identity index
        (lastRow? object.typeName (·.strictEq identity) (empty.accepted changes))) ∧
    ∀ (typeName : String) (other : Value) (row : List Value) (index : Nat), identities other →
      (typeName = object.typeName → other.strictEq identity = false) →
      ((empty.changeAll changes).change (.put typeName other row)).fetch object index =
        (empty.changeAll changes).fetch object index

/-- Display texts tell the given identities apart as strict equality does. -/
def ToldApart (identities : Value → Prop) : Prop :=
  ∀ a b, identities a → identities b → (a.toText = b.toText ↔ a.strictEq b)

theorem keptByIdentity_of_toldApart {identities : Value → Prop} (h : ToldApart identities) :
    KeptByIdentity identities := by
  intro changes object identity hentries hidentity hmem
  refine ⟨fun index => ?_, fun typeName other row index hother hne => ?_⟩
  · rw [fetch_changeAll changes hidentity]
    refine congrArg _ (lastRow?_congr fun entry hentry htype => ?_)
    rw [Bool.eq_iff_iff, beq_iff_eq]
    exact h _ _ (hentries entry hentry htype) hmem
  · refine fetch_change_put _ hidentity (fun htype htext => ?_) row index
    have hsame := (h other identity hother hmem).mp htext
    rw [hne htype] at hsame
    cases hsame

theorem toldApart_of_keptByIdentity {identities : Value → Prop} (h : KeptByIdentity identities) :
    ToldApart identities := by
  intro a b ha hb
  obtain ⟨hfetch, -⟩ := h [.defineLayout "" [], .put "" a []] ⟨default, "", [], some b⟩ b
    (by simpa [accepted, put, empty, defineLayout, Bindings.insert, Bindings.get?] using ha) rfl hb
  have hfetch := hfetch 0
  rw [fetch_changeAll _ rfl] at hfetch
  have hlast : ∀ same : Value → Bool,
      lastRow? "" same (empty.accepted [.defineLayout "" [], .put "" a []]) =
        if same a then some [] else none := by
    intro same
    have haccepted : empty.accepted [.defineLayout "" [], .put "" a []] = [⟨"", a, []⟩] := rfl
    rw [haccepted, lastRow?_cons]
    rfl
  rw [hlast, hlast] at hfetch
  by_cases htext : a.toText = b.toText <;> cases hstrict : a.strictEq b <;>
    simp_all [read]

/-- The kinds of which a value displays all that strict equality looks at. -/
def faithfulKinds : List DataType :=
  [.boolean, .character, .byte, .short, .integer, .long, .bigInteger, .string, .class]

theorem toldApart_of_faithful {identities : Value → Prop} {kind : DataType}
    (h : kind ∈ faithfulKinds)
    (hkind : ∀ identity, identities identity → identity.dataType? = some kind) :
    ToldApart identities := by
  intro a b hamem hbmem
  have ha := hkind a hamem
  have hb := hkind b hbmem
  clear hkind hamem hbmem
  simp only [faithfulKinds, List.mem_cons, List.not_mem_nil, or_false] at h
  have hint : ∀ m n : Int, toString m = toString n ↔ m = n :=
    fun _ _ => ⟨Int.repr_injective, congrArg _⟩
  rcases h with rfl | rfl | rfl | rfl | rfl | rfl | rfl | rfl | rfl
  all_goals
    cases a <;> cases ha
    cases b <;> cases hb
    simp only [Value.toText, Value.strictEq, beq_iff_eq]
  · rename_i p q
    cases p <;> cases q <;> decide
  · exact String.singleton_inj
  · rw [hint, Int8.toInt_inj]
  · rw [hint, Int16.toInt_inj]
  · rw [hint, Int32.toInt_inj]
  · rw [hint, Int64.toInt_inj]
  · exact hint _ _
  · exact String.append_right_inj _

/-- Rows are kept by identity exactly among identities that their display texts tell apart as strict
equality does. Identities of one kind are such, unless they are binary numbers, decimals, objects or
containers. -/
theorem keptByIdentity_iff_toldApart (identities : Value → Prop) :
    (KeptByIdentity identities ↔ ToldApart identities) ∧
      ∀ kind ∈ faithfulKinds,
        (∀ identity, identities identity → identity.dataType? = some kind) →
        KeptByIdentity identities :=
  ⟨⟨toldApart_of_keptByIdentity, keptByIdentity_of_toldApart⟩,
    fun _ hfaithful hkind => keptByIdentity_of_toldApart (toldApart_of_faithful hfaithful hkind)⟩

/-- Among longs rows are kept by identity. -/
theorem keptByIdentity_iff_toldApart_longs :
    let longs : Value → Prop := fun identity => ∃ n, identity = .long n
    (DataType.long ∈ faithfulKinds ∧ ∀ identity, longs identity → identity.dataType? = some .long) ∧
      KeptByIdentity longs := by
  intro longs
  have hkind : ∀ identity, longs identity → identity.dataType? = some .long := by
    rintro identity ⟨n, rfl⟩
    rfl
  exact ⟨⟨by decide, hkind⟩, (keptByIdentity_iff_toldApart longs).2 .long (by decide) hkind⟩

/-- An integer and a long of one text share a row, a decimal does not find the row of an equal one
of another scale, and not-a-number finds the row of not-a-number, to which it is not equal. -/
theorem rows_shared_by_text :
    let layout : Change := .defineLayout "P" ["a"]
    let fetched (changes : List Change) (identity : Value) : Except StoreError Value :=
      (empty.changeAll (layout :: changes)).fetch ⟨default, "P", [], some identity⟩ 0
    (fetched [.put "P" (.int 1) [.string "x"], .put "P" (.long 1) [.string "y"]] (.int 1) =
        .ok (.string "y") ∧ (Value.long 1).strictEq (.int 1) = false) ∧
      (fetched [.put "P" (.decimal ⟨10, 1⟩) [.null]] (.decimal ⟨100, 2⟩) =
        .error (.noState "P" "1.00") ∧
          (Value.decimal ⟨10, 1⟩).strictEq (.decimal ⟨100, 2⟩) = true) ∧
      fetched [.put "P" (.double .nan) [.null]] (.double .nan) = .ok .null ∧
        (Value.double .nan).strictEq (.double .nan) = false :=
  ⟨⟨rfl, rfl⟩, ⟨rfl, rfl⟩, rfl, rfl⟩

end ObjectStore

end ObjectQuery
