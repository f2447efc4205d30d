import ObjectQuery.Proofs.Catalog.ClassInfo
import ObjectQuery.Proofs.Expr.Tagged
import ObjectQuery.Proofs.Json.Writer
import ObjectQuery.Query.Document

/-!
Query documents that are written and read again. Main statement: a document that was read can be
written and read once more exactly if the floats of its literals are finite and it is not nested too
deep, and then it is the same document and is written in the same way.
-/

namespace ObjectQuery

open Json Reading

variable {depth : ℕ}

namespace OrderingTerm

/-- Terms that sort by alike expressions and in the same way. -/
structure Alike (term found : OrderingTerm) : Prop where
  expr : term.expr.Alike found.expr
  descending : found.descending = term.descending
  nullsFirst : found.nullsFirst = term.nullsFirst

/-- A term with which a document is the same, and is written in the same way. -/
def Restores (term found : OrderingTerm) : Prop :=
  term.Alike found ∧ found.toJson.canonical = term.toJson.canonical

/-- A place in a document is not too deep for a term, and all its floats can be written. -/
def Fits (term : OrderingTerm) (depth : ℕ) : Prop :=
  term.toJson.canonical.depth < depth ∧ term.expr.All Expr.FloatsAreFinite

theorem offers_nullsFirst (nullsFirst : Option Bool) (depth : ℕ) :
    Offers (optional (fun json => json.boolean?)
      (some (((nullsFirst.map Json.boolean).getD .null).canonical.cut depth))) True
      (· = nullsFirst) := by
  cases nullsFirst <;> exact .here trivial rfl

theorem meets_ofJson? {term : OrderingTerm} (h : term.expr.All Expr.IsStorable) (depth : ℕ) :
    Meets (ofJson? (term.toJson.canonical.cut depth)) (term.Fits depth) term.Restores := by
  refine Meets.record (by simp) shape le_rfl fun hlt _ => ?_
  simp only [List.forall_mem_cons]
  refine Meets.congr (c := term.expr.Fits (depth - 1) ∧ True ∧ True) ?_ ?_
  · refine Meets.bind (Expr.meets_ofTagged? h (by omega)) fun e he => ?_
    refine Meets.bind (Meets.lift (.here trivial rfl)) fun descending hdescending => ?_
    refine Meets.map (Meets.lift (offers_nullsFirst term.nullsFirst _)) fun nullsFirst hnulls => ?_
    refine ⟨⟨he.1, hdescending.symm, hnulls⟩, ?_⟩
    rw [toJson, toJson, canonical, canonical]
    simp only [canonicalMembers, he.canonical, hnulls, ← hdescending]
  · have hdescending : (Json.boolean term.descending).canonical.depth < depth - 1 :=
      Nat.sub_pos_of_lt hlt
    have hnulls : ((term.nullsFirst.map Json.boolean).getD .null).canonical.depth < depth - 1 := by
      cases term.nullsFirst <;> exact Nat.sub_pos_of_lt hlt
    simp only [Expr.Fits, Expr.written]
    tauto

theorem yields_ofJson? {json : Json} (h : json.NumbersInRange) :
    Yields (ofJson? json) fun term => term.expr.All Expr.IsStorable := by
  refine Yields.bind (Yields.lift fun _ => Value.numbersInRange_of_record? h) fun found hfound => ?_
  split
  · refine Yields.bind (Expr.yields_ofTagged? (hfound _ (by simp))) fun e he => ?_
    exact Yields.bind Yields.any fun _ _ => Yields.bind Yields.any fun _ _ => Yields.pure he
  · exact Yields.failure

theorem legible_toJson {term : OrderingTerm} (h : term.expr.All Expr.IsStorable) :
    term.toJson.All (Legible JsonNumber.InRange) := by
  rw [toJson, legible_object]
  simp only [List.forall_mem_cons]
  exact ⟨Expr.legible_toTagged h, legible_of_leaf trivial rfl,
    legible_optional fun _ _ => legible_of_leaf trivial rfl, by simp⟩

end OrderingTerm

namespace RowRange

/-- Ends of a range that a document can hold. -/
def InRange (range : RowRange) : Prop :=
  range.first < UInt64.size ∧ ∀ stop ∈ range.stop, stop < UInt64.size

theorem lt_of_count? {json : Json} {n : ℕ} (h : json.count? = some n) : n < UInt64.size := by
  unfold count? natural? at h
  split at h
  · split at h
    · obtain rfl := Option.some.inj h
      assumption
    · cases h
  · cases h

theorem inRange_of_ofEnds {json : Json} {ends : Ends} {range : RowRange}
    (h : Ends.ofJson? json = some ends) (hends : ofEnds ends = .ok range) : range.InRange := by
  obtain ⟨found, -, h⟩ := Option.bind_eq_some_iff.mp h
  split at h
  case h_2 => cases h
  obtain ⟨first, hfirst, h⟩ := Option.bind_eq_some_iff.mp h
  obtain ⟨stop, hstop, h⟩ := Option.bind_eq_some_iff.mp h
  obtain rfl := Option.some.inj h
  have hfirst' : first < UInt64.size := by
    rcases of_withDefault hfirst with rfl | ⟨json, -, hjson⟩
    · decide
    · exact lt_of_count? hjson
  have hstop' : ∀ n ∈ stop, n < UInt64.size := fun n hn =>
    let ⟨_, _, hjson⟩ := of_optional hstop hn
    lt_of_count? hjson
  cases stop with
  | none =>
    obtain rfl := Except.ok.inj hends
    exact ⟨hfirst', hstop'⟩
  | some stop =>
    rw [ofEnds] at hends
    split at hends
    · obtain rfl := Except.ok.inj hends
      exact ⟨hfirst', hstop'⟩
    · cases hends

theorem offers_count {n : ℕ} (h : n < UInt64.size) :
    Offers ((Json.ofInt n).count?) True (· = n) := by
  have hcount : (Json.ofInt n).count? = some n := if_pos h
  rw [hcount]
  exact .pure rfl

theorem offers_ofJson? {range : RowRange} (h : range.InRange) (depth : ℕ) :
    Offers (Ends.ofJson? (range.toJson.canonical.cut depth)) (1 < depth)
      (· = ⟨range.first, range.stop⟩) := by
  have hread : Offers (Ends.ofJson? (range.toJson.canonical.cut depth))
      (1 < depth ∧ True ∧ ∀ stop ∈ range.stop, True) (· = ⟨range.first, range.stop⟩) := by
    refine .bind (offers_record (by simp) _ _) fun found hfound => ?_
    rw [hfound]
    refine .bind (offers_count h.1) fun first hfirst => ?_
    refine .map (offers_optional (fun _ _ => Json.noConfusion) fun stop hstop =>
      offers_count (h.2 stop hstop)) fun stop hstop => ?_
    rw [hfirst, eq_of_rel hstop]
  exact hread.congr (by simp)

theorem depth_toJson_lt_iff {range : RowRange} :
    range.toJson.canonical.depth < depth ↔ 1 < depth := by
  rw [toJson, depth_canonical_object_lt_iff (by simp)]
  refine and_iff_left_of_imp fun hlt => ?_
  have hleaf : 0 < depth - 1 := by omega
  simp only [List.forall_mem_cons, depth_optional_lt_iff hleaf]
  exact ⟨hleaf, fun _ _ => hleaf, by simp⟩

theorem ofEnds_self (range : RowRange) : ofEnds ⟨range.first, range.stop⟩ = .ok range := by
  obtain ⟨first, stop, hle⟩ := range
  cases stop with
  | none => rfl
  | some stop => exact dif_pos (hle stop rfl)

theorem legible_toJson {range : RowRange} (h : range.InRange) :
    range.toJson.All (Legible JsonNumber.InRange) := by
  have hcount : ∀ n : ℕ, n < UInt64.size → (Json.ofInt n).All (Legible JsonNumber.InRange) :=
    fun n hn => by
      have hmin : Int64.minValue.toInt = -2 ^ 63 := by decide
      have hrange : (JsonNumber.integer n).InRange := by
        constructor <;> omega
      exact legible_of_leaf hrange rfl
  rw [toJson, legible_object]
  simp only [List.forall_mem_cons]
  exact ⟨hcount _ h.1, legible_optional fun stop hstop => hcount stop (h.2 stop hstop), by simp⟩

end RowRange

namespace Query

theorem offers_bindings? {α : Type} (read : Json → Option α) (write : α → Json)
    {bindings : Bindings α} (hnodup : (bindings.map (·.1)).Nodup) {c : α → Prop}
    (h : 1 < depth → ∀ binding ∈ bindings,
      Offers (read ((write binding.2).canonical.cut (depth - 1))) (c binding.2) (· = binding.2)) :
    Offers
      (bindings? read ((Json.object (bindings.map fun binding =>
        (binding.1, write binding.2))).canonical.cut depth))
      (1 < depth ∧ ∀ binding ∈ bindings, c binding.2) (· = sortMembers bindings) := by
  refine .bind (offers_members _ _).known fun members ⟨hlt, hmembers⟩ => ?_
  rw [hmembers, sortMembers_map, List.map_map]
  have hread : Offers (((sortMembers bindings).map fun binding =>
      (binding.1, (write binding.2).canonical.cut (depth - 1))).mapM
        fun member => do return (member.1, ← read member.2))
      (∀ binding ∈ sortMembers bindings, c binding.2)
      (List.Forall₂ (fun a b => b = a) (sortMembers bindings)) :=
    .mapM_map fun binding hbinding => .map (h hlt binding (mem_sortMembers hbinding))
      fun value hvalue => by rw [hvalue]
  have hperm : ∀ binding, binding ∈ sortMembers bindings ↔ binding ∈ bindings :=
    fun _ => (sortMembers_perm hnodup).mem_iff
  simp only [hperm] at hread
  refine .map hread fun pairs hpairs => ?_
  rw [eq_of_forall₂ hpairs, Bindings.ofList_eq_self (namesAscend_sortMembers bindings).nodup]

theorem offers_plain? {json : Json} (hcanonical : json.canonical = json) (hreadable : json.readable)
    (hdepth : 0 < depth) :
    Offers (plain? (json.canonical.cut depth)) (json.canonical.depth < depth) (· = json) := by
  rw [hcanonical]
  by_cases hlt : json.depth < depth
  · rw [cut_eq_self hlt, plain?, if_pos hreadable, hcanonical]
    exact .here hlt rfl
  · rw [plain?, if_neg fun hread => hlt (depth_lt_of_readable_cut hread hdepth)]
    exact .gone hlt

/-- The expressions of a query, wherever they stand. -/
def expressions (query : Query) : List Expr :=
  query.filter.toList ++ query.ordering.map (·.expr) ++ query.result

/-- Queries that do the same: of the maps from names only the order may be another. -/
structure Alike (query found : Query) : Prop where
  candidateName : found.candidateName = query.candidateName
  filter : Option.Rel Expr.Alike query.filter found.filter
  ordering : List.Forall₂ OrderingTerm.Alike query.ordering found.ordering
  range : found.range = query.range
  result : List.Forall₂ Expr.Alike query.result found.result
  parameters : ∀ name, found.parameters.get? name = query.parameters.get? name
  declared : found.declared = query.declared
  classes : found.classes = query.classes
  imports : ∀ name, found.imports.get? name = query.imports.get? name

/-- A query with which a document is the same, and is written in the same way. -/
def Restores (query found : Query) : Prop :=
  query.Alike found ∧ found.toJson.canonical = query.toJson.canonical

/-- What every query that is read from a document is. -/
structure IsStorable (query : Query) : Prop where
  expressions : ∀ e ∈ query.expressions, e.All Expr.IsStorable
  range : ∀ range ∈ query.range, range.InRange
  parameterNames : (query.parameters.map (·.1)).Nodup
  parameters : ∀ parameter ∈ query.parameters,
    parameter.2.canonical = parameter.2 ∧ parameter.2.All (Legible JsonNumber.InRange)
  importNames : (query.imports.map (·.1)).Nodup

/-- No float in a literal is an infinity or not-a-number. -/
def FloatsAreFinite (query : Query) : Prop :=
  ∀ e ∈ query.expressions, e.All Expr.FloatsAreFinite

variable {query : Query}

theorem forall_mem_expressions {p : Expr → Prop} : (∀ e ∈ query.expressions, p e) ↔
    (∀ e ∈ query.filter, p e) ∧ (∀ term ∈ query.ordering, p term.expr) ∧
      ∀ e ∈ query.result, p e := by
  simp only [expressions, List.forall_mem_append, Option.mem_toList, Option.mem_def,
    List.forall_mem_map, and_assoc]

theorem offers_parameters (h : query.IsStorable) (depth : ℕ) :
    Offers (bindings? plain? ((Json.object query.parameters).canonical.cut depth))
      (1 < depth ∧ ∀ parameter ∈ query.parameters, parameter.2.canonical.depth < depth - 1)
      (· = sortMembers query.parameters) := by
  have hread : Offers (bindings? plain? ((Json.object (query.parameters.map fun parameter =>
      (parameter.1, id parameter.2))).canonical.cut depth))
      (1 < depth ∧ ∀ parameter ∈ query.parameters, parameter.2.canonical.depth < depth - 1)
      (· = sortMembers query.parameters) :=
    offers_bindings? plain? id (c := (·.canonical.depth < depth - 1)) h.parameterNames
      fun hlt parameter hparameter => offers_plain? (h.parameters parameter hparameter).1
        (h.parameters parameter hparameter).2.readable (by omega)
  have hsame : query.parameters.map (fun parameter => (parameter.1, id parameter.2)) =
      query.parameters := List.map_id' _
  rwa [hsame] at hread

theorem offers_imports (h : query.IsStorable) (depth : ℕ) :
    Offers (bindings? string? ((Json.object (query.imports.map fun (shortName, typeName) =>
        (shortName, .string typeName))).canonical.cut depth)) (1 < depth)
      (· = sortMembers query.imports) := by
  refine Offers.congr (c := 1 < depth ∧ ∀ entry ∈ query.imports, True) ?_ (by simp)
  exact offers_bindings? string? Json.string (c := fun _ => True) h.importNames
    fun _ _ _ => .here trivial rfl

theorem restores (h : query.IsStorable) {filter : Option Expr} {ordering : List OrderingTerm}
    {result : List Expr} (hfilter : Option.Rel Expr.Restores query.filter filter)
    (hordering : List.Forall₂ OrderingTerm.Restores query.ordering ordering)
    (hresult : List.Forall₂ Expr.Restores query.result result) :
    query.Restores ⟨query.candidateName, filter, ordering, query.range, result,
      sortMembers query.parameters, query.declared, query.classes, sortMembers query.imports⟩ := by
  refine ⟨⟨rfl, rel_imp (fun _ _ h => h.1) hfilter, hordering.imp fun _ _ h => h.1, rfl,
    hresult.imp fun _ _ h => h.1, ?_, rfl, rfl, ?_⟩, ?_⟩
  · have hperm := sortMembers_perm h.parameterNames
    exact Bindings.get?_perm hperm ((hperm.map _).nodup_iff.mpr h.parameterNames)
  · have hperm := sortMembers_perm h.importNames
    exact Bindings.get?_perm hperm ((hperm.map _).nodup_iff.mpr h.importNames)
  · have hfilter' : ((filter.map Expr.toTagged).getD .null).canonical =
        ((query.filter.map Expr.toTagged).getD .null).canonical := by
      rw [← Expr.optionToTagged_eq, ← Expr.optionToTagged_eq, Expr.canonical_option hfilter]
    have hordering' : (Json.array (ordering.map OrderingTerm.toJson)).canonical =
        (Json.array (query.ordering.map OrderingTerm.toJson)).canonical := by
      rw [canonical_array, canonical_array, List.map_map, List.map_map]
      exact congrArg Json.array (map_eq_map_of_forall₂ hordering fun _ _ h => h.2)
    have hresult' : (Json.array (result.map Expr.toTagged)).canonical =
        (Json.array (query.result.map Expr.toTagged)).canonical := by
      rw [canonical_array, canonical_array, List.map_map, List.map_map]
      exact congrArg Json.array (map_eq_map_of_forall₂ hresult fun _ _ h => h.2)
    have hparameters : (Json.object (sortMembers query.parameters)).canonical =
        (Json.object query.parameters).canonical := by
      rw [canonical_object, canonical_object, sortMembers_sortMembers]
    have himports : (Json.object ((sortMembers query.imports).map fun entry =>
        (entry.1, Json.string entry.2))).canonical =
          (Json.object
            (query.imports.map fun entry => (entry.1, Json.string entry.2))).canonical := by
      rw [canonical_object, canonical_object, sortMembers_map, sortMembers_map,
        sortMembers_sortMembers]
    rw [toJson, toJson, canonical, canonical]
    simp only [canonicalMembers, hfilter', hordering', hresult', hparameters, himports]

/-- A query that was read is read from what is written of it exactly if that fits in its place. -/
theorem meets_ofJson? (h : query.IsStorable) (depth : ℕ) :
    Meets (ofJson? (query.toJson.canonical.cut depth))
      (query.toJson.canonical.depth < depth ∧ query.FloatsAreFinite)
      fun found => ∃ again, found = .ok again ∧ query.Restores again := by
  obtain ⟨hfilter, hordering, hresult⟩ := forall_mem_expressions.mp h.expressions
  refine Meets.record (by simp) shape le_rfl fun hlt _ => ?_
  have hbelow : 0 < depth - 1 := by omega
  simp only [List.forall_mem_cons]
  refine Meets.congr (c := True ∧ (∀ e ∈ query.filter, e.Fits (depth - 1)) ∧
    (1 < depth - 1 ∧ ∀ term ∈ query.ordering, term.Fits (depth - 1 - 1)) ∧
    (∀ range ∈ query.range, 1 < depth - 1) ∧
    (1 < depth - 1 ∧ ∀ e ∈ query.result, e.Fits (depth - 1 - 1)) ∧
    (1 < depth - 1 ∧ ∀ parameter ∈ query.parameters, parameter.2.canonical.depth < depth - 1 - 1) ∧
    1 < depth - 1 ∧
    (1 < depth - 1 ∧ ∀ c ∈ query.classes, c.toJson.canonical.depth < depth - 1 - 1) ∧
    1 < depth - 1) ?_ ?_
  · refine Meets.bind (Meets.lift (.here trivial rfl)) fun candidateName hname => ?_
    refine Meets.bind (Meets.optional (fun e _ => e.toTagged_ne_null) fun e he =>
      Expr.meets_ofTagged? (hfilter e he) hbelow) fun filter hfilter' => ?_
    refine Meets.bind (Meets.list fun hlt' term hterm =>
      OrderingTerm.meets_ofJson? (hordering term hterm) _) fun ordering hordering' => ?_
    refine Meets.bind (Meets.lift (offers_optional (fun _ _ => Json.noConfusion) fun range hrange =>
      RowRange.offers_ofJson? (h.range range hrange) _)) fun ends hends => ?_
    refine Meets.bind (Meets.list fun hlt' e he =>
      Expr.meets_ofTagged? (hresult e he) (by omega)) fun result hresult' => ?_
    refine Meets.bind (Meets.lift (offers_parameters h _)) fun parameters hparameters => ?_
    refine Meets.bind (Meets.lift (offers_strings query.declared _)) fun declared hdeclared => ?_
    refine Meets.bind (Meets.lift (offers_list fun c _ => c.offers_ofJson? _))
      fun classes hclasses => ?_
    refine Meets.congr (c := 1 < depth - 1 ∧ True) ?_ (and_iff_left trivial)
    refine Meets.bind (Meets.lift (offers_imports h _)) fun imports himports => ?_
    have hrestores := restores h hfilter' hordering' hresult'
    rw [eq_of_forall₂ hclasses, hparameters, hdeclared, himports, ← hname]
    cases hrange : query.range with
    | none =>
      rw [hrange] at hends hrestores
      cases hends
      exact Meets.pure ⟨_, rfl, hrestores⟩
    | some range =>
      rw [hrange] at hends hrestores
      cases hends with
      | some hends =>
        change Meets (pure ((RowRange.ofEnds _).map _)) _ _
        rw [hends, RowRange.ofEnds_self]
        exact Meets.pure ⟨_, rfl, hrestores⟩
  · have hname : (Json.string query.candidateName).canonical.depth < depth - 1 := hbelow
    have himports : (Json.object (query.imports.map fun entry =>
        (entry.1, Json.string entry.2))).canonical.depth < depth - 1 ↔ 1 < depth - 1 := by
      rw [depth_canonical_object_lt_iff (by rw [List.map_map]; exact h.importNames),
        List.forall_mem_map]
      exact and_iff_left_of_imp fun hlt' _ _ => Nat.sub_pos_of_lt hlt'
    rw [depth_optional_lt_iff hbelow, depth_optional_lt_iff hbelow, himports,
      depth_strings_lt_iff, depth_canonical_object_lt_iff h.parameterNames, FloatsAreFinite,
      forall_mem_expressions]
    simp only [depth_canonical_array_lt_iff, List.forall_mem_map, RowRange.depth_toJson_lt_iff,
      Expr.Fits, OrderingTerm.Fits, forall₂_and]
    simp only [Expr.written]
    tauto

/-! ### What is read -/

theorem yields_list? {α : Type} {read : Json → Reading α} {p : α → Prop} {json : Json}
    (h : ∀ json, json.NumbersInRange → Yields (read json) p) (hjson : json.NumbersInRange) :
    Yields (list? read json) fun found => ∀ a ∈ found, p a :=
  Yields.bind (Yields.lift fun _ => Value.numbersInRange_of_items? hjson) fun _ hitems =>
    Yields.mapM fun item hitem => h item (hitems item hitem)

theorem nodup_of_bindings? {α : Type} {read : Json → Option α} {json : Json} {found : Bindings α}
    (h : bindings? read json = some found) : (found.map (·.1)).Nodup := by
  obtain ⟨members, -, h⟩ := Option.bind_eq_some_iff.mp h
  obtain ⟨pairs, -, h⟩ := Option.bind_eq_some_iff.mp h
  obtain rfl := Option.some.inj h
  exact Bindings.nodup_ofList _

theorem forall_of_bindings? {α : Type} {read : Json → Option α} {json : Json} {found : Bindings α}
    {p : α → Prop} (h : bindings? read json = some found) (hjson : json.NumbersInRange)
    (hread : ∀ json, json.NumbersInRange → ∀ a, read json = some a → p a) :
    ∀ binding ∈ found, p binding.2 := by
  obtain ⟨members, hmembers, h⟩ := Option.bind_eq_some_iff.mp h
  obtain ⟨pairs, hpairs, h⟩ := Option.bind_eq_some_iff.mp h
  obtain rfl := Option.some.inj h
  intro binding hbinding
  refine forall_of_mapM (p := fun pair => p pair.2) hpairs (fun member hmember pair hpair => ?_)
    binding (Bindings.mem_ofList hbinding)
  obtain ⟨value, hvalue, hpair⟩ := Option.bind_eq_some_iff.mp hpair
  obtain rfl := Option.some.inj hpair
  exact hread _ (Value.numbersInRange_of_members? hjson hmembers member hmember) _ hvalue

theorem legible_of_plain? {json found : Json} (h : plain? json = some found)
    (hjson : json.NumbersInRange) :
    found.canonical = found ∧ found.All (Legible JsonNumber.InRange) := by
  rw [plain?] at h
  split at h
  · rename_i hreadable
    obtain rfl := Option.some.inj h
    exact ⟨canonical_canonical json,
      (hjson.legible hreadable).canonical fun _ hn => hn.widened⟩
  · cases h

theorem yields_ofJson? {json : Json} (h : json.NumbersInRange) :
    Yields (ofJson? json) fun found => ∀ query, found = .ok query → query.IsStorable := by
  refine Yields.bind (Yields.lift fun _ => Value.numbersInRange_of_record? h) fun found hfound => ?_
  split
  case h_2 => exact Yields.failure
  rename_i candidateName filter ordering range result parameters declared classes imports
  refine Yields.bind Yields.any fun candidateName _ => ?_
  refine Yields.bind (Yields.optional (p := Expr.All Expr.IsStorable) fun json hjson =>
    Expr.yields_ofTagged? (hfound json (by simp_all))) fun filter hfilter => ?_
  refine Yields.bind (p := fun terms => ∀ term ∈ terms, term.expr.All Expr.IsStorable)
    (Yields.withDefault (by simp) fun json hjson =>
      yields_list? (fun _ => OrderingTerm.yields_ofJson?) (hfound json (by simp_all)))
    fun ordering hordering => ?_
  refine Yields.bind (p := fun ends => ∀ ends' ∈ ends, ∀ range, RowRange.ofEnds ends' = .ok range →
    range.InRange) (Yields.lift fun ends hends ends' hmem range hrange => ?_) fun ends hends => ?_
  · obtain ⟨json, -, hjson⟩ := of_optional hends hmem
    exact RowRange.inRange_of_ofEnds hjson hrange
  refine Yields.bind (Yields.withDefault (p := fun es => ∀ e ∈ es, e.All Expr.IsStorable) (by simp)
    fun json hjson => yields_list? (fun _ => Expr.yields_ofTagged?) (hfound json (by simp_all)))
    fun result hresult => ?_
  refine Yields.bind (p := fun bindings => (bindings.map (·.1)).Nodup ∧ ∀ parameter ∈ bindings,
    parameter.2.canonical = parameter.2 ∧ parameter.2.All (Legible JsonNumber.InRange))
    (Yields.lift fun bindings hbindings => ?_) fun parameters hparameters => ?_
  · rcases of_withDefault hbindings with rfl | ⟨json, hjson, hread⟩
    · simp
    · exact ⟨nodup_of_bindings? hread, forall_of_bindings? hread (hfound json (by simp_all))
        fun _ hnumbers _ hplain => legible_of_plain? hplain hnumbers⟩
  refine Yields.bind Yields.any fun declared _ => Yields.bind Yields.any fun classes _ => ?_
  refine Yields.bind (p := fun bindings => (bindings.map (·.1)).Nodup)
    (Yields.lift fun bindings hbindings => ?_) fun imports himports => ?_
  · rcases of_withDefault hbindings with rfl | ⟨json, hjson, hread⟩
    · simp
    · exact nodup_of_bindings? hread
  have hexpressions : ∀ e ∈ filter.toList ++ ordering.map (·.expr) ++ result,
      e.All Expr.IsStorable := by
    simp only [List.forall_mem_append, List.forall_mem_map, Option.mem_toList]
    exact ⟨⟨hfilter, hordering⟩, hresult⟩
  split
  · refine Yields.pure fun query hquery => ?_
    obtain rfl := Except.ok.inj hquery
    exact ⟨hexpressions, by simp, hparameters.1, hparameters.2, himports⟩
  · rename_i ends
    refine Yields.pure fun query hquery => ?_
    cases hrange : RowRange.ofEnds ends with
    | error error => rw [hrange] at hquery; cases hquery
    | ok range =>
      rw [hrange] at hquery
      obtain rfl := Except.ok.inj hquery
      refine ⟨hexpressions, fun range' hrange' => ?_, hparameters.1, hparameters.2, himports⟩
      obtain rfl := Option.some.inj hrange'
      exact hends ends rfl range hrange

theorem isStorable_of_ofDocument {text : String} {supply : InstanceId}
    (h : (ofDocument text supply).1 = .ok query) : query.IsStorable := by
  unfold ofDocument at h
  split at h
  · cases h
  · rename_i json hjson
    split at h
    · cases h
    · rename_i found after hfound
      exact yields_ofJson? (numbersInRange_of_read? hjson) _ _ hfound query h

/-! ### What is written -/

theorem legible_toJson (h : query.IsStorable) :
    query.toJson.All (Legible JsonNumber.InRange) := by
  obtain ⟨hfilter, hordering, hresult⟩ := forall_mem_expressions.mp h.expressions
  have hname : ∀ name, (Json.string name).All (Legible JsonNumber.InRange) := fun _ =>
    legible_of_leaf trivial rfl
  rw [toJson, legible_object]
  simp only [List.forall_mem_cons, legible_array, legible_object, List.forall_mem_map]
  exact ⟨hname _, legible_optional fun e he => Expr.legible_toTagged (hfilter e he),
    fun term hterm => OrderingTerm.legible_toJson (hordering term hterm),
    legible_optional fun range hrange => RowRange.legible_toJson (h.range range hrange),
    fun e he => Expr.legible_toTagged (hresult e he),
    fun parameter hparameter => (h.parameters parameter hparameter).2, fun _ _ => hname _,
    fun c _ => c.legible_toJson, fun _ _ => hname _, by simp⟩

/-- The numbers of a written document that are no integers are read as themselves. -/
def NumbersReread (query : Query) : Prop :=
  query.toJson.canonical.All fun node =>
    ∀ x, node = .number (.double x) → (JsonNumber.double x).Rereads

/-- A query is read from its document, but for what is nested too deep. -/
theorem read?_toDocument (h : query.IsStorable) (hnumbers : query.NumbersReread) :
    read? query.toDocument = some (query.toJson.canonical.cut nestingLimit) := by
  have hlegible : query.toJson.canonical.All (Legible fun n => n.InRange ∧ n.widened = n) :=
    (legible_toJson h).canonical fun n hn => ⟨hn.widened, n.widened_widened⟩
  refine read?_render ((hlegible.and hnumbers).imp ?_)
  rintro json ⟨hself, hnumber⟩
  cases json with
  | number n =>
    cases n with
    | integer n => exact rereads_integer hself.1
    | double x => exact hnumber x rfl
    | single x => cases hself.2
  | _ => exact hself

/-- A query is not nested too deep to be read again, and all its floats can be written. -/
def Fits (query : Query) : Prop :=
  query.toJson.canonical.depth < nestingLimit ∧ query.FloatsAreFinite

theorem exists_ofDocument_toDocument (h : query.IsStorable) (hnumbers : query.NumbersReread)
    (hfits : query.Fits) (supply : InstanceId) :
    ∃ found, (ofDocument query.toDocument supply).1 = .ok found ∧ query.Restores found := by
  have hmeets := meets_ofJson? h nestingLimit supply
  obtain ⟨⟨read, after⟩, hread⟩ := Option.isSome_iff_exists.mp (hmeets.isSome_iff.mpr hfits)
  obtain ⟨found, hfound, hrestores⟩ := hmeets.holds _ hread
  refine ⟨found, ?_, hrestores⟩
  simp only [ofDocument, read?_toDocument h hnumbers, hread, hfound]

theorem ofDocument_toDocument_of_not_fits (h : query.IsStorable) (hnumbers : query.NumbersReread)
    (hfits : ¬query.Fits) (supply : InstanceId) :
    (ofDocument query.toDocument supply).1 = .error .malformed := by
  have hnone := mt (meets_ofJson? h nestingLimit supply).isSome_iff.mp hfits
  simp only [ofDocument, read?_toDocument h hnumbers, Option.not_isSome_iff_eq_none.mp hnone]

/-- A query that was read from a document, and whose numbers are read from their texts, survives
writing and reading exactly if it fits; then its document stays the same from there on. -/
theorem rewritten_document {text : String} {supply : InstanceId}
    (h : (ofDocument text supply).1 = .ok query) (hnumbers : query.NumbersReread)
    (again : InstanceId) :
    (query.Fits → ∃ found, (ofDocument query.toDocument again).1 = .ok found ∧
      query.Alike found ∧ found.toDocument = query.toDocument) ∧
    (¬query.Fits → (ofDocument query.toDocument again).1 = .error .malformed) := by
  have hstorable := isStorable_of_ofDocument h
  refine ⟨fun hfits => ?_, fun hfits => ?_⟩
  · obtain ⟨found, hfound, halike, hwritten⟩ :=
      exists_ofDocument_toDocument hstorable hnumbers hfits again
    exact ⟨found, hfound, halike, congrArg render hwritten⟩
  · exact ofDocument_toDocument_of_not_fits hstorable hnumbers hfits again

theorem numbersReread_of_legible {p : JsonNumber → Prop} (h : query.toJson.All (Legible p))
    (hp : ∀ n, p n → n.widened.Rereads) : query.NumbersReread := by
  refine (h.canonical (q := JsonNumber.Rereads) hp).imp fun node hnode x hx => ?_
  rw [hx] at hnode
  exact hnode

/-- The least positive double. -/
def least : Double := .finite false 1 (by decide +kernel)

/-- A filter that compares the candidate with a double, and an order by a decimal. -/
def aboveLeast : Query :=
  { all with
    filter := some (.binary .gt (.path none ["this"]) (.literal (.double least)))
    ordering := [⟨.literal (.decimal ⟨150, 2⟩), true, none⟩] }

theorem all_aboveLeast {p : Expr → Prop}
    (hcomparison : p (.binary .gt (.path none ["this"]) (.literal (.double least))))
    (hpath : p (.path none ["this"])) (hdouble : p (.literal (.double least)))
    (hdecimal : p (.literal (.decimal ⟨150, 2⟩))) : ∀ e ∈ aboveLeast.expressions, e.All p := by
  have hleaf : ∀ e : Expr, p e → e.children = [] → e.All p := fun e he h => ⟨he, by simp [h]⟩
  simp only [expressions, aboveLeast, all, Option.toList_some, List.map_cons, List.map_nil,
    List.append_nil, List.singleton_append, List.forall_mem_cons]
  refine ⟨⟨hcomparison, ?_⟩, hleaf _ hdecimal rfl, by simp⟩
  rw [Expr.children, List.forall_mem_cons, List.forall_mem_singleton]
  exact ⟨hleaf _ hpath rfl, hleaf _ hdouble rfl⟩

theorem isStorable_aboveLeast : aboveLeast.IsStorable where
  expressions := all_aboveLeast trivial trivial (Value.all_of_children_eq_nil rfl rfl)
    (Value.all_of_children_eq_nil rfl rfl)
  range := by simp [aboveLeast, all]
  parameterNames := List.nodup_nil
  parameters := by simp [aboveLeast, all]
  importNames := List.nodup_nil

theorem fits_aboveLeast : aboveLeast.Fits :=
  ⟨by decide +kernel, all_aboveLeast trivial trivial (Value.all_of_children_eq_nil trivial rfl)
    (Value.all_of_children_eq_nil trivial rfl)⟩

def isLeast : Option Json → Bool
  | some (.number (.double (.finite false units _))) => units == 1
  | _ => false

theorem eq_of_isLeast {json : Option Json} (h : isLeast json) :
    json = some (.number (.double least)) := by
  unfold isLeast at h
  split at h
  · obtain rfl := beq_iff_eq.mp h
    rfl
  · cases h

theorem rereads_least : (JsonNumber.double least).Rereads := by
  have hread : isLeast (read? (renderNumber (.double least))) := by decide +kernel
  exact eq_of_isLeast hread

theorem numbersReread_aboveLeast : aboveLeast.NumbersReread := by
  have hname : ∀ s, (Json.string s).All (Legible (· = .double least)) := fun _ =>
    legible_of_leaf trivial rfl
  have hnull : Json.null.All (Legible (· = .double least)) := legible_of_leaf trivial rfl
  have hboolean : ∀ b, (Json.boolean b).All (Legible (· = .double least)) := fun _ =>
    legible_of_leaf trivial rfl
  have hnumber : (Json.ofDouble least).All (Legible (· = .double least)) := legible_of_leaf rfl rfl
  refine numbersReread_of_legible (p := (· = .double least)) ?_ fun n hn => hn ▸ rereads_least
  simp [toJson, aboveLeast, all, OrderingTerm.toJson, Expr.toTagged, Expr.optionToTagged,
    Value.toTagged, Value.tagged, legible_object, legible_array, hname, hnull, hboolean, hnumber]

/-- The comparison is read from its document, fits, and is read again. -/
theorem rewritten_document_aboveLeast :
    ∃ query : Query, (ofDocument aboveLeast.toDocument ⟨0, 0, 0⟩).1 = .ok query ∧
      query.NumbersReread ∧ query.Fits ∧
      ∃ found, (ofDocument query.toDocument ⟨0, 0, 0⟩).1 = .ok found ∧
        query.Alike found ∧ found.toDocument = query.toDocument := by
  obtain ⟨query, hquery, halike, hwritten⟩ := exists_ofDocument_toDocument isStorable_aboveLeast
    numbersReread_aboveLeast fits_aboveLeast ⟨0, 0, 0⟩
  have hnumbers : query.NumbersReread := by
    rw [NumbersReread, hwritten]
    exact numbersReread_aboveLeast
  have hfits : query.Fits := by
    by_contra hfits
    have hgone := ofDocument_toDocument_of_not_fits (isStorable_of_ofDocument hquery) hnumbers hfits
      ⟨0, 0, 0⟩
    rw [toDocument, hwritten, ← toDocument, hquery] at hgone
    cases hgone
  exact ⟨query, hquery, hnumbers, hfits, (rewritten_document hquery hnumbers ⟨0, 0, 0⟩).1 hfits⟩

/-- A document with a float beyond the greatest one. -/
def overflowing : String :=
  "\x7b\"result\":[\x7b\"Literal\":\x7b\"value\":\x7b\"Float\":1e40\x7d\x7d\x7d]\x7d"

/-- A query whose one result is an infinite float. -/
def infiniteFloat : Query := { all with result := [.literal (.float (.infinite false))] }

def isInfiniteFloat : Except DocumentError Query → Bool
  | .ok ⟨name, none, [], none, [.literal (.float (.infinite false))], [], [], [], []⟩ =>
    name == Context.defaultCandidateName
  | _ => false

theorem eq_of_isInfiniteFloat {read : Except DocumentError Query} (h : isInfiniteFloat read) :
    read = .ok infiniteFloat := by
  unfold isInfiniteFloat at h
  split at h
  · rw [beq_iff_eq.mp h]
    rfl
  · cases h

theorem ofDocument_overflowing :
    (ofDocument overflowing ⟨0, 0, 0⟩).1 = .ok infiniteFloat := by
  have hread : isInfiniteFloat (ofDocument overflowing ⟨0, 0, 0⟩).1 := by decide +kernel
  exact eq_of_isInfiniteFloat hread

/-- A float may be read from a number beyond its range, but its infinity is written as null, which
no float is read from. -/
theorem overflowing_document_lost :
    ∃ query : Query, (ofDocument overflowing ⟨0, 0, 0⟩).1 = .ok query ∧
      query.NumbersReread ∧ (ofDocument query.toDocument ⟨0, 0, 0⟩).1 = .error .malformed := by
  have hnumbers : infiniteFloat.NumbersReread := by
    have hname : ∀ s, (Json.string s).All (Legible fun _ => False) := fun _ =>
      legible_of_leaf trivial rfl
    have hnull : Json.null.All (Legible fun _ => False) := legible_of_leaf trivial rfl
    have hinfinite : (Json.ofSingle (.infinite false)).All (Legible fun _ => False) := hnull
    refine numbersReread_of_legible (p := fun _ => False) ?_ fun n hn => hn.elim
    simp [toJson, infiniteFloat, all, Expr.toTagged, Value.toTagged, Value.tagged, legible_object,
      legible_array, hname, hnull, hinfinite]
  refine ⟨_, ofDocument_overflowing, hnumbers, ?_⟩
  refine ofDocument_toDocument_of_not_fits
    (isStorable_of_ofDocument ofDocument_overflowing) hnumbers
    (fun hfits => ?_) _
  have hfinite := (hfits.2 _ (List.mem_append_right _ (List.mem_singleton_self _))).self
  have hself : (Value.float (.infinite false)).FloatIsFinite := Value.All.self hfinite
  cases hself

end Query

end ObjectQuery
