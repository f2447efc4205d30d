import ObjectQuery.Proofs.Cursor.Composition
import ObjectQuery.Proofs.Value.Reprinting
import ObjectQuery.Query.Command

/-!
Queries that give their candidates as they are. Main statement: candidates in plain JSON are printed
as they were read and in their order, if their numbers are signed 64-bit integers or finite doubles
and their only marks are types.
-/

namespace ObjectQuery

open Json

/-- Plain JSON with signed 64-bit integers and finite doubles as its numbers, and with no marks of
objects but their types. -/
structure Json.IsPlain (json : Json) : Prop where
  numbers : json.All (Legible JsonNumber.IsPlain)
  marks : json.All OnlyTypeMarked

namespace Query

/-- The query neither selects nor orders candidates, and asks for no results and no range of them.
-/
structure GivesCandidates (query : Query) : Prop where
  filter : query.filter = none
  ordering : query.ordering = []
  result : query.result = []
  range : query.range = none

variable {query : Query}

theorem GivesCandidates.stages_eq_nil (h : query.GivesCandidates) : query.stages = [] := by
  simp [stages, resultStages, h.filter, h.ordering, h.result, h.range]

theorem GivesCandidates.rows (h : query.GivesCandidates) (registry : Registry)
    (access : FieldAccess) (candidates : List Value) (supply : InstanceId) :
    ((query.execute registry access candidates).run supply).1.rows = .ok candidates := by
  have hrows : (runCursor (.scan candidates)).rows = .ok candidates := by
    obtain ⟨running, hread, -⟩ := Cursor.Running.readAll_of_gives
      (Cursor.scan_gives candidates candidates (Nat.le_refl _)) .empty
    have hinit : (Cursor.Running.start (.scan candidates)).init =
        (.ok (), ⟨.scan candidates, ⟨some candidates, .empty⟩⟩) := rfl
    rw [Event.drained_map_ok] at hread
    simp only [runCursor, hinit, hread]
  have hstages : ∀ scope : Cursor.Scope,
      (runCursor (.ofStages scope candidates query.stages)).rows = .ok candidates := by
    rw [h.stages_eq_nil]
    exact fun _ => hrows
  exact hstages _

end Query

namespace Command

variable {query : Query} {items : List Json} {document text : String}
  {candidateName : Option String}

theorem canonical_of_readAll? {json : Json} (h : readAll? text = some json) :
    json.canonical = json := by
  obtain ⟨read, -, hread⟩ := Option.bind_eq_some_iff.mp h
  split at hread
  · rw [← Option.some.inj hread, canonical_canonical]
  · cases hread

theorem run_of_readAll? {supply after : InstanceId}
    (hquery : (loadQuery document candidateName).run supply = (.ok query, after))
    (htext : readAll? text = some (.array items)) :
    ((run document text candidateName).run supply).1 =
      ((execute query ((Value.ofJsonItems items).run after).1).run
        ((Value.ofJsonItems items).run after).2).1.1 := by
  have hcandidates : readCandidates text =
      (Except.ok <$> Value.ofJsonItems items : Naming (Except CommandError (List Value))) := by
    rw [readCandidates, htext]
    rfl
  rw [run, StateT.run_bind, hquery]
  simp only [hcandidates]
  rfl

theorem execute_of_rows {candidates rows : List Value} {supply : InstanceId}
    (h : ((query.execute .builtin .detached candidates).run supply).1.rows = .ok rows) :
    ((execute query candidates).run supply).1.1 = .ok (rows.map fun row => row.toJson.render) := by
  rw [execute, StateT.run_bind]
  cases hrun : (query.execute .builtin .detached candidates).run supply with
  | mk outcome after =>
    obtain ⟨found, trace⟩ := outcome
    rw [hrun] at h
    obtain rfl : found = .ok rows := h
    rfl

/-- A tree is written as the one that it was read from. So the rows of a query that gives its
candidates are the candidates, and the command prints them as they are in the text, whatever else
the document declares. -/
theorem candidates_printed_back :
    (∀ json : Json, json.canonical = json → json.IsPlain →
      ∀ supply, ((Value.ofJson json).run supply).1.toJson = json) ∧
    (∀ (query : Query) (items : List Json), query.GivesCandidates →
      (∀ item ∈ items, item.canonical = item ∧ item.IsPlain) →
      ∀ registry access supply supply', ∃ rows,
        ((query.execute registry access
          ((Value.ofJsonItems items).run supply).1).run supply').1.rows =
          .ok rows ∧ rows.map Value.toJson = items) ∧
    (∀ (document text : String) (candidateName : Option String) (supply after : InstanceId)
      (query : Query) (items : List Json),
      (loadQuery document candidateName).run supply = (.ok query, after) → query.GivesCandidates →
      readAll? text = some (.array items) → (∀ item ∈ items, item.IsPlain) →
      ((run document text candidateName).run supply).1 = .ok (items.map render)) := by
  refine ⟨fun json hcanonical hplain =>
    Value.reprints hcanonical hplain.numbers hplain.marks, ?_, ?_⟩
  · intro query items hquery hitems registry access supply supply'
    have hreprints : ∀ item ∈ items, Value.Reprints item := fun item hitem =>
      Value.reprints (hitems item hitem).1 (hitems item hitem).2.numbers (hitems item hitem).2.marks
    exact ⟨_, hquery.rows registry access _ supply', Value.map_toJson_ofJsonItems hreprints supply⟩
  · intro document text candidateName supply after query items hload hquery htext hitems
    have hreprints : ∀ item ∈ items, Value.Reprints item := fun item hitem =>
      Value.reprints (canonical_of_mem_children (canonical_of_readAll? htext) hitem)
        (hitems item hitem).numbers (hitems item hitem).marks
    have hlines := congrArg (List.map render) (Value.map_toJson_ofJsonItems hreprints after)
    rw [List.map_map] at hlines
    rw [run_of_readAll? hload htext, execute_of_rows (hquery.rows _ _ _ _)]
    exact congrArg Except.ok hlines

/-- An object with its type among its fields. -/
def typed : Json :=
  .object [("$type", .string "P"), ("n", .ofInt (-3)), ("of", .array [.boolean true, .null])]

/-- A map with a number under the name of a type. -/
def untyped : Json :=
  .object [("$type", .ofInt 7), ("half", .number (.double (.ofRatio false 1 2)))]

theorem isPlain_typed : typed.IsPlain where
  numbers := by
    simp only [typed, legible_object, List.forall_mem_cons, legible_array]
    exact ⟨legible_of_leaf trivial rfl, legible_of_leaf rfl rfl,
      ⟨legible_of_leaf trivial rfl, legible_of_leaf trivial rfl, by simp⟩, by simp⟩
  marks := by
    have hnames : typed.OnlyTypeMarked := by
      simp only [typed, OnlyTypeMarked, List.forall_mem_cons]
      decide +kernel
    simp only [typed, all_object, List.forall_mem_cons, all_array]
    exact ⟨hnames, .of_leaf trivial rfl, .of_leaf trivial rfl,
      ⟨trivial, .of_leaf trivial rfl, .of_leaf trivial rfl, by simp⟩, by simp⟩

theorem isPlain_untyped : untyped.IsPlain where
  numbers := by
    have hhalf : (Binary.ofRatio false 1 2 : Double).isFinite := by decide +kernel
    simp only [untyped, legible_object, List.forall_mem_cons]
    exact ⟨legible_of_leaf rfl rfl, legible_of_leaf hhalf rfl, by simp⟩
  marks := by
    have hnames : untyped.OnlyTypeMarked := by
      simp only [untyped, OnlyTypeMarked, List.forall_mem_cons]
      decide +kernel
    simp only [untyped, all_object, List.forall_mem_cons]
    exact ⟨hnames, .of_leaf trivial rfl, .of_leaf trivial rfl, by simp⟩

/-- An object and a map are given back, and the object is printed also if its type was written
behind a field. -/
theorem candidates_printed_back_typed :
    let text := "[\x7b\"n\":-3,\"$type\":\"P\",\"of\":[true,null]\x7d]"
    (untyped.canonical = untyped ∧ untyped.IsPlain ∧
      ((Value.ofJson untyped).run default).1.toJson = untyped) ∧
    (Query.all.GivesCandidates ∧ (∀ item ∈ [untyped, typed], item.canonical = item ∧ item.IsPlain) ∧
      ∃ rows, ((Query.all.execute .builtin .detached
        ((Value.ofJsonItems [untyped, typed]).run default).1).run default).1.rows = .ok rows ∧
          rows.map Value.toJson = [untyped, typed]) ∧
    (loadQuery "\x7b\x7d" none).run default = (.ok Query.all, default) ∧
    readAll? text = some (.array [typed]) ∧ (∀ item ∈ [typed], item.IsPlain) ∧
    ((run "\x7b\x7d" text none).run default).1 =
      .ok ["\x7b\"$type\":\"P\",\"n\":-3,\"of\":[true,null]\x7d"] := by
  intro text
  obtain ⟨htree, hrows, hlines⟩ := candidates_printed_back
  have huntyped : untyped.canonical = untyped := by
    have hascend : NamesAscend [("$type", Json.ofInt 7),
        ("half", .number (.double (.ofRatio false 1 2)))] := by
      simp only [NamesAscend, List.pairwise_pair]
      decide +kernel
    rw [untyped, canonical_object, sortMembers_of_namesAscend hascend]
    rfl
  have htyped : typed.canonical = typed := by cbv
  have hquery : Query.all.GivesCandidates := ⟨rfl, rfl, rfl, rfl⟩
  have hitems : ∀ item ∈ [untyped, typed], item.canonical = item ∧ item.IsPlain := by
    simpa using ⟨⟨huntyped, isPlain_untyped⟩, htyped, isPlain_typed⟩
  have hload : (loadQuery "\x7b\x7d" none).run default = (.ok Query.all, default) := by cbv
  have hread : readAll? text = some (.array [typed]) := by cbv
  have hread_plain : ∀ item ∈ [typed], item.IsPlain := by simpa using isPlain_typed
  have hrendered : [typed].map render =
      ["\x7b\"$type\":\"P\",\"n\":-3,\"of\":[true,null]\x7d"] := by
    decide +kernel
  refine ⟨⟨huntyped, isPlain_untyped, htree untyped huntyped isPlain_untyped default⟩,
    ⟨hquery, hitems, hrows .all _ hquery hitems .builtin .detached default default⟩,
    hload, hread, hread_plain, ?_⟩
  rw [hlines _ _ none _ _ .all _ hload hquery hread hread_plain, hrendered]

end Command

end ObjectQuery
