import ObjectQuery.Expr.Tagged
import ObjectQuery.Json.Reader
import ObjectQuery.Json.Writer
import ObjectQuery.Query

/-!
Query documents: queries as JSON. Every member may be left out, and writing gives them all.
-/

namespace ObjectQuery

/-- Why a document is refused. -/
inductive DocumentError where
  | malformed
  | invalidRange (first stop : Nat)
deriving DecidableEq, Repr

def DocumentError.message : DocumentError → String
  | malformed => "Invalid query document"
  | invalidRange first stop => s!"Invalid range: from {first} is past to {stop}"

namespace OrderingTerm

def shape : List Json.Field := [⟨"expr", false⟩, ⟨"descending", true⟩, ⟨"nulls_first", true⟩]

def ofJson? (json : Json) : Reading OrderingTerm := do
  match ← json.record? shape with
  | [some e, descending, nullsFirst] =>
    return {
      expr := ← Expr.ofTagged? e
      descending := ← Json.withDefault (m := Option) (fun json => json.boolean?) false descending
      nullsFirst := ← Json.optional (m := Option) (fun json => json.boolean?) nullsFirst }
  | _ => failure

def toJson (term : OrderingTerm) : Json :=
  .object [("expr", term.expr.toTagged), ("descending", .boolean term.descending),
    ("nulls_first", (term.nullsFirst.map Json.boolean).getD .null)]

end OrderingTerm

namespace RowRange

/-- The ends of a range before they are compared. -/
structure Ends where
  first : Nat
  stop : Option Nat

def shape : List Json.Field := [⟨"from", true⟩, ⟨"to", true⟩]

/-- Reads the ends of a range. -/
def Ends.ofJson? (json : Json) : Option Ends := do
  match ← json.record? shape with
  | [first, stop] =>
    return {
      first := ← Json.withDefault (fun json => json.count?) 0 first
      stop := ← Json.optional (fun json => json.count?) stop }
  | _ => none

/-- The range between two ends, which must not cross. -/
def ofEnds (ends : Ends) : Except DocumentError RowRange :=
  match ends with
  | ⟨first, none⟩ => .ok ⟨first, none, by simp⟩
  | ⟨first, some stop⟩ =>
    if h : first ≤ stop then .ok ⟨first, some stop, by simpa using h⟩
    else .error (.invalidRange first stop)

def toJson (range : RowRange) : Json :=
  .object [("from", .ofInt range.first),
    ("to", (range.stop.map fun (stop : Nat) => Json.ofInt stop).getD .null)]

end RowRange

namespace Query

def shape : List Json.Field :=
  ["alias", "filter", "ordering", "range", "result", "parameters", "variables", "classes",
    "imports"].map fun name => ⟨name, true⟩

/-- Reads the members of an object that maps names to values; the last of a repeated name counts. -/
def bindings? {α : Type} (read : Json → Option α) (json : Json) : Option (Bindings α) := do
  let pairs ← (← json.members?).mapM fun (name, value) => return (name, ← read value)
  return Bindings.ofList pairs

/-- The value of a parameter, no part of which may be unreadable. -/
def plain? (json : Json) : Option Json := if json.readable then some json.canonical else none

/-- Reads an array, item by item. -/
def list? {α : Type} {m : Type → Type} [Monad m] [MonadLiftT Option m] (read : Json → m α)
    (json : Json) : m (List α) := do
  (← (json.items? : Option (List Json))).mapM read

/-- Reads the members of a document; whether the ends of its range are in order is decided last. -/
def ofJson? (json : Json) : Reading (Except DocumentError Query) := do
  match ← json.record? shape with
  | [candidateName, filter, ordering, range, result, parameters, declared, classes, imports] =>
    let candidateName ←
      Json.withDefault (m := Option) Json.string? Context.defaultCandidateName candidateName
    let filter ← Json.optional Expr.ofTagged? filter
    let ordering ← Json.withDefault (list? OrderingTerm.ofJson?) [] ordering
    let ends ← Json.optional (m := Option) RowRange.Ends.ofJson? range
    let result ← Json.withDefault (list? Expr.ofTagged?) [] result
    let parameters ← Json.withDefault (m := Option) (bindings? plain?) [] parameters
    let declared ← Json.withDefault (m := Option) (list? Json.string?) [] declared
    let classes ← Json.withDefault (m := Option) (list? ClassInfo.ofJson?) [] classes
    let imports ← Json.withDefault (m := Option) (bindings? Json.string?) [] imports
    let query (range : Option RowRange) : Query :=
      { candidateName, filter, ordering, range, result, parameters, declared, classes, imports }
    match ends with
    | none => return .ok (query none)
    | some ends => return (RowRange.ofEnds ends).map fun range => query (some range)
  | _ => failure

/-- Reads a query from the text of a document. -/
def ofDocument (text : String) : Naming (Except DocumentError Query) := fun supply =>
  match Json.read? text with
  | none => (.error .malformed, supply)
  | some json =>
    match (ofJson? json).run supply with
    | none => (.error .malformed, supply)
    | some (query, supply) => (query, supply)

def toJson (query : Query) : Json :=
  .object [
    ("alias", .string query.candidateName),
    ("filter", (query.filter.map Expr.toTagged).getD .null),
    ("ordering", .array (query.ordering.map OrderingTerm.toJson)),
    ("range", (query.range.map RowRange.toJson).getD .null),
    ("result", .array (query.result.map Expr.toTagged)),
    ("parameters", .object query.parameters),
    ("variables", .array (query.declared.map .string)),
    ("classes", .array (query.classes.map ClassInfo.toJson)),
    ("imports", .object (query.imports.map fun (shortName, typeName) =>
      (shortName, .string typeName)))]

/-- The text of a query's document. -/
def toDocument (query : Query) : String := query.toJson.canonical.render

end Query

end ObjectQuery
