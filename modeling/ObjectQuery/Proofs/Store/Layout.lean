import ObjectQuery.Proofs.Store.History

/-!
Rows and layouts. A row has as many values as the layout had fields under which it was put; that
layout may have been replaced since. Main statement: rows fit their layouts as long as no layout of
another width is defined over them, and a member is served the value that was put for it if its
place is what it was then.
-/

namespace ObjectQuery

namespace ObjectStore

/-- Every row has as many values as the layout of its type has fields. -/
def Fitting (store : ObjectStore) : Prop :=
  ∀ key row, store.row? key = some row →
    ∃ layout, store.layouts.get? key.typeName = some layout ∧ layout.length = row.length

/-- The place of a member in a layout, that of the first field of its name. -/
def place? (layout : List String) (member : String) : Option Nat := layout.findIdx? (· == member)

/-- A row and the layout under which it was put. -/
structure Placement where
  layout : List String
  row : List Value

/-- The value that was put for a member. -/
def Placement.value? (placement : Placement) (member : String) : Option Value := do
  placement.row[← place? placement.layout member]?

/-- How a row of a type comes to be stored, if it fits the layout of the type. -/
def placement? (store : ObjectStore) (typeName : String) (row : List Value) : Option Placement :=
  ((store.layouts.get? typeName).filter fun layout => layout.length = row.length).map fun layout =>
    ⟨layout, row⟩

/-- The row that changes put last under a key, if they put any. -/
def placed? (store : ObjectStore) (key : RowKey) : List Change → Option Placement
  | [] => none
  | .defineLayout typeName fields :: rest => placed? (store.defineLayout typeName fields) key rest
  | .put typeName identity row :: rest =>
    (placed? (store.change (.put typeName identity row)) key rest).or
      (if key = ⟨typeName, identity.toText⟩ then store.placement? typeName row else none)

variable {store : ObjectStore} {typeName : String} {row : List Value} {placement : Placement}

/-! ### One change -/

theorem placement?_eq_some_iff :
    store.placement? typeName row = some placement ↔
      store.layouts.get? typeName = some placement.layout ∧
        placement.layout.length = row.length ∧ placement.row = row := by
  rw [placement?, Option.map_eq_some_iff]
  constructor
  · rintro ⟨layout, hlayout, rfl⟩
    obtain ⟨hget, hlength⟩ := Option.filter_eq_some_iff.mp hlayout
    exact ⟨hget, by simpa using hlength, rfl⟩
  · rintro ⟨hget, hlength, rfl⟩
    exact ⟨placement.layout, Option.filter_eq_some_iff.mpr ⟨hget, by simpa using hlength⟩, rfl⟩

theorem put_of_placement? (h : store.placement? typeName row = some placement)
    (identity : Value) :
    store.put typeName identity row =
      .ok { store with rows := insertRow ⟨typeName, identity.toText⟩ row store.rows } := by
  obtain ⟨hlayout, hlength, -⟩ := placement?_eq_some_iff.mp h
  simp only [put, hlayout, if_pos hlength]

theorem change_put_of_placement?_eq_none (h : store.placement? typeName row = none)
    (identity : Value) : store.change (.put typeName identity row) = store := by
  rw [placement?, Option.map_eq_none_iff, Option.filter_eq_none_iff] at h
  rw [change, put]
  cases hlayout : store.layouts.get? typeName with
  | none => rfl
  | some layout =>
    simp only
    rw [if_neg (by simpa using h layout hlayout)]
    rfl

theorem layouts_change_put (store : ObjectStore) (typeName : String) (identity : Value)
    (row : List Value) : (store.change (.put typeName identity row)).layouts = store.layouts := by
  cases hplacement : store.placement? typeName row with
  | none => rw [change_put_of_placement?_eq_none hplacement]
  | some placement =>
    rw [change, put_of_placement? hplacement]
    rfl

theorem row?_change_put (store : ObjectStore) (typeName : String) (identity : Value)
    (row : List Value) (key : RowKey) :
    (store.change (.put typeName identity row)).row? key =
      ((if key = ⟨typeName, identity.toText⟩ then store.placement? typeName row
        else none).map Placement.row).or (store.row? key) := by
  cases hplacement : store.placement? typeName row with
  | none =>
    rw [change_put_of_placement?_eq_none hplacement, ite_self]
    rfl
  | some placement =>
    have hput := put_of_placement? hplacement identity
    obtain ⟨-, -, rfl⟩ := placement?_eq_some_iff.mp hplacement
    rw [change, hput]
    refine (row?_of_put hput key).trans ?_
    split <;> rfl

/-! ### Histories -/

theorem row?_changeAll_placed (store : ObjectStore) (changes : List Change) (key : RowKey) :
    (store.changeAll changes).row? key =
      ((placed? store key changes).map Placement.row).or (store.row? key) := by
  induction changes generalizing store with
  | nil => rfl
  | cons head rest ih =>
    rw [changeAll, List.foldl_cons, ← changeAll, ih]
    cases head with
    | defineLayout typeName fields => rfl
    | put typeName identity row => rw [placed?, Option.map_or, Option.or_assoc, row?_change_put]

theorem length_of_placed? {changes : List Change} {key : RowKey}
    (h : placed? store key changes = some placement) :
    placement.layout.length = placement.row.length := by
  induction changes generalizing store with
  | nil => cases h
  | cons head rest ih =>
    cases head with
    | defineLayout typeName fields => exact ih h
    | put typeName identity row =>
      rw [placed?, Option.or_eq_some_iff] at h
      rcases h with h | ⟨-, h⟩
      · exact ih h
      · split at h
        · obtain ⟨-, hlength, rfl⟩ := placement?_eq_some_iff.mp h
          exact hlength
        · cases h

theorem exists_placed? {changes : List Change} {key : RowKey}
    (h : (empty.changeAll changes).row? key = some row) :
    ∃ placement, placed? empty key changes = some placement ∧ placement.row = row := by
  have hempty : empty.row? key = none := rfl
  rw [row?_changeAll_placed, hempty, Option.or_none] at h
  exact Option.map_eq_some_iff.mp h

/-! ### Rows that fit -/

theorem fitting_empty : empty.Fitting := by
  intro key row h
  cases h

theorem Fitting.put (h : store.Fitting) (typeName : String) (identity : Value)
    (row : List Value) : (store.change (.put typeName identity row)).Fitting := by
  intro key found hfound
  rw [layouts_change_put]
  rw [row?_change_put, Option.or_eq_some_iff, Option.map_eq_some_iff] at hfound
  rcases hfound with ⟨placement, hplacement, rfl⟩ | ⟨-, hfound⟩
  · split at hplacement
    · rename_i hkey
      obtain ⟨hlayout, hlength, hrow⟩ := placement?_eq_some_iff.mp hplacement
      rw [hkey]
      exact ⟨placement.layout, hlayout, hrow ▸ hlength⟩
    · cases hplacement
  · exact h key found hfound

theorem Fitting.defineLayout_iff (h : store.Fitting) (typeName : String) (fields : List String) :
    (store.defineLayout typeName fields).Fitting ↔
      ∀ identity row, store.row? ⟨typeName, identity⟩ = some row → fields.length = row.length := by
  constructor
  · intro hafter identity row hrow
    obtain ⟨layout, hlayout, hlength⟩ := hafter ⟨typeName, identity⟩ row hrow
    rw [defineLayout, Bindings.get?_insert_self] at hlayout
    rwa [Option.some.inj hlayout]
  · intro hwidths key row hrow
    by_cases htype : typeName = key.typeName
    · refine ⟨fields, ?_, hwidths key.identity row (htype ▸ hrow)⟩
      rw [defineLayout, htype, Bindings.get?_insert_self]
    · rw [defineLayout, Bindings.get?_insert_of_ne _ _ htype]
      exact h key row hrow

/-- Rows fit all along a history exactly if no layout in it has another width than rows that it
comes to stand over. -/
theorem fitting_throughout_iff (changes : List Change) :
    (∀ before, before <+: changes → (empty.changeAll before).Fitting) ↔
      ∀ before typeName fields, before ++ [.defineLayout typeName fields] <+: changes →
        ∀ identity row, (empty.changeAll before).row? ⟨typeName, identity⟩ = some row →
          fields.length = row.length := by
  have hsnoc : ∀ before change,
      empty.changeAll (before ++ [change]) = (empty.changeAll before).change change := by
    intro before change
    rw [changeAll, List.foldl_concat, ← changeAll]
  constructor
  · intro hfitting before typeName fields hprefix
    have hbefore := hfitting before ((List.prefix_append _ _).trans hprefix)
    have hafter := hfitting _ hprefix
    rw [hsnoc] at hafter
    exact (hbefore.defineLayout_iff typeName fields).mp hafter
  · intro hwidths before hprefix
    induction before using List.reverseRecOn with
    | nil => exact fitting_empty
    | append_singleton before change ih =>
      have hbefore := ih ((List.prefix_append _ _).trans hprefix)
      rw [hsnoc]
      cases change with
      | defineLayout typeName fields =>
        exact (hbefore.defineLayout_iff typeName fields).mpr
          (hwidths before typeName fields hprefix)
      | put typeName identity row => exact hbefore.put typeName identity row

/-! ### Fields that are served -/

theorem fetch_eq_ok_iff {object : Object} {identity : Value}
    (hidentity : object.identity = some identity)
    (hrow : store.row? ⟨object.typeName, identity.toText⟩ = some row) (index : Nat)
    (value : Value) : store.fetch object index = .ok value ↔ row[index]? = some value := by
  rw [fetch, hidentity]
  simp only [hrow]
  cases row[index]? <;> simp

theorem lt_length_of_place? {layout : List String} {member : String} {index : Nat}
    (h : place? layout member = some index) : index < layout.length :=
  (List.findIdx?_eq_some_iff_getElem.mp h).1

/-- Rows fit their layouts all along a history exactly if no layout in it has another width than
rows that it comes to stand over. Whatever the history, an object with a row is served from it: at
the index of a member there is a value if the layout under which the row was put had so many fields,
and it is the value that was put for the member if this had the same place there. -/
theorem rows_fit_iff_widths_kept (changes : List Change) :
    ((∀ before, before <+: changes → (empty.changeAll before).Fitting) ↔
      ∀ before typeName fields, before ++ [.defineLayout typeName fields] <+: changes →
        ∀ identity row, (empty.changeAll before).row? ⟨typeName, identity⟩ = some row →
          fields.length = row.length) ∧
    ∀ (object : Object) (identity : Value) (row : List Value), object.identity = some identity →
      (empty.changeAll changes).row? ⟨object.typeName, identity.toText⟩ = some row →
      ∃ placement, placed? empty ⟨object.typeName, identity.toText⟩ changes = some placement ∧
        placement.row = row ∧
        ∀ member index, (empty.changeAll changes).fieldIndex? object member = some index →
          ((∃ value, (empty.changeAll changes).fetch object index = .ok value) ↔
            index < placement.layout.length) ∧
          (place? placement.layout member = some index →
            ∃ value, placement.value? member = some value ∧
              (empty.changeAll changes).fetch object index = .ok value) := by
  refine ⟨fitting_throughout_iff changes, fun object identity row hidentity hrow => ?_⟩
  obtain ⟨placement, hplacement, rfl⟩ := exists_placed? hrow
  refine ⟨placement, hplacement, rfl, fun member index _ => ?_⟩
  have hlength := length_of_placed? hplacement
  have hserved := fetch_eq_ok_iff hidentity hrow index
  refine ⟨?_, fun hplace => ?_⟩
  · rw [hlength]
    simp [hserved, List.getElem?_eq_some_iff]
  · have hindex := lt_length_of_place? hplace
    rw [hlength] at hindex
    refine ⟨placement.row[index], ?_, (hserved _).mpr (List.getElem?_eq_getElem hindex)⟩
    rw [Placement.value?, hplace]
    exact List.getElem?_eq_getElem hindex

/-- A row of two values keeps fitting where its second field is replaced by another, and its first
member is served. -/
theorem rows_fit_iff_widths_kept_replacedField :
    let history : List Change := [.defineLayout "P" ["a", "b"],
      .put "P" (.int 1) [.string "x", .string "y"], .defineLayout "P" ["a", "c"]]
    let object : Object := ⟨default, "P", [], some (.int 1)⟩
    (∀ before, before <+: history → (empty.changeAll before).Fitting) ∧
      (object.identity = some (.int 1) ∧
        (empty.changeAll history).row? ⟨"P", (Value.int 1).toText⟩ =
          some [.string "x", .string "y"] ∧
        (empty.changeAll history).fieldIndex? object "a" = some 0 ∧
        place? ["a", "b"] "a" = some 0) ∧
      (empty.changeAll history).fetch object 0 = .ok (.string "x") := by
  intro history object
  have hwidths : ∀ before typeName fields, before ++ [.defineLayout typeName fields] <+: history →
      ∀ identity row, (empty.changeAll before).row? ⟨typeName, identity⟩ = some row →
        fields.length = row.length := by
    intro before typeName fields hprefix identity row hrow
    match before with
    | [] => cases hrow
    | [first] => simp [history] at hprefix
    | [first, second] =>
      simp only [history, List.cons_append, List.nil_append, List.cons_prefix_cons,
        List.nil_prefix, and_true] at hprefix
      obtain ⟨rfl, rfl, hlast⟩ := hprefix
      cases hlast
      have hstored : (empty.changeAll [.defineLayout "P" ["a", "b"],
          .put "P" (.int 1) [.string "x", .string "y"]]).rows =
            [(⟨"P", "1"⟩, [.string "x", .string "y"])] := rfl
      rw [row?, hstored] at hrow
      simp only [List.find?_cons, List.find?_nil] at hrow
      split at hrow <;> cases hrow
      rfl
    | first :: second :: third :: rest => simp [history] at hprefix
  obtain ⟨hfit, hserved⟩ := rows_fit_iff_widths_kept history
  obtain ⟨placement, hplacement, hrow, hmembers⟩ := hserved object (.int 1) _ rfl rfl
  have hlayout : placement = ⟨["a", "b"], [.string "x", .string "y"]⟩ :=
    (Option.some.inj hplacement).symm
  subst hlayout
  obtain ⟨value, hvalue, hfetch⟩ := (hmembers "a" 0 rfl).2 rfl
  cases hvalue
  exact ⟨hfit.mpr hwidths, ⟨rfl, rfl, rfl, rfl⟩, hfetch⟩

/-- A layout is widened over a row of one value: the row no longer fits, and at the index of a
member whose value was put there is none. With two fields in the other order, the value of the one
is served for the other. -/
theorem row_outgrown_by_layout :
    let object : Object := ⟨default, "P", [], some (.int 1)⟩
    let widened := empty.changeAll [.defineLayout "P" ["a"], .put "P" (.int 1) [.string "x"],
      .defineLayout "P" ["b", "a"]]
    let swapped := empty.changeAll [.defineLayout "P" ["a", "b"],
      .put "P" (.int 1) [.string "x", .string "y"], .defineLayout "P" ["b", "a"]]
    (¬ widened.Fitting ∧ widened.row? ⟨"P", "1"⟩ = some [.string "x"] ∧
        widened.fieldIndex? object "a" = some 1 ∧
        widened.fetch object 1 = .error (.noField "P" 1)) ∧
      swapped.fieldIndex? object "a" = some 1 ∧
        swapped.fetch object 1 = .ok (.string "y") := by
  intro object widened swapped
  have hfitting : ¬ widened.Fitting := by
    intro h
    obtain ⟨layout, hlayout, hlength⟩ := h ⟨"P", "1"⟩ [.string "x"] rfl
    cases hlayout
    cases hlength
  exact ⟨⟨hfitting, rfl, rfl, rfl⟩, rfl, rfl⟩

end ObjectStore

end ObjectQuery
