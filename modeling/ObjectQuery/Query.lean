import ObjectQuery.Cursor.Stage
import ObjectQuery.Json
import ObjectQuery.Value.Plain

/-!
Queries over candidates in memory: candidates are filtered, then ordered, then turned into result
rows, and of the rows a range is given. The rows are one for each candidate or, if a result calls an
aggregate, a single one.
-/

namespace ObjectQuery

/-- One term of a query's ordering. -/
structure OrderingTerm where
  expr : Expr
  descending : Bool
  /-- Whether nulls come first; if nothing is said, the direction decides. -/
  nullsFirst : Option Bool

/-- The sort key that a term stands for. -/
def OrderingTerm.sortKey (term : OrderingTerm) : SortKey where
  expr := term.expr
  descending := term.descending
  nulls := match term.nullsFirst with
    | some true => .first
    | some false => .last
    | none => SortKey.defaultNulls term.descending

/-- The rows from one place up to but not including another, or to the end. -/
structure RowRange where
  first : Nat
  stop : Option Nat
  first_le_stop : ∀ stop' ∈ stop, first ≤ stop'

/-- A query as a document describes it. -/
structure Query where
  /-- The name under which expressions find the candidate. -/
  candidateName : String
  filter : Option Expr
  ordering : List OrderingTerm
  range : Option RowRange
  /-- What a row consists of; if there is nothing, the candidates are the rows. -/
  result : List Expr
  /-- The values of parameters as plain JSON. -/
  parameters : Bindings Json
  /-- The variables that the query declares. -/
  declared : List String
  classes : List ClassInfo
  /-- Names that stand for types of other names. -/
  imports : Bindings String

namespace Query

def all : Query := ⟨Context.defaultCandidateName, none, [], none, [], [], [], [], []⟩

/-- The types that the query knows. -/
def catalog (query : Query) : Catalog :=
  query.imports.foldl (fun catalog (shortName, typeName) => catalog.addImport shortName typeName)
    (query.classes.foldl Catalog.register .empty)

/-- The stage that makes rows: an aggregation, a projection, or none. -/
def resultStages (result : List Expr) : List Stage :=
  if result.any Expr.containsAggregate then [.aggregate result]
  else if result.isEmpty then []
  else [.project result]

/-- The stages of the query from the lowest to the last. -/
def stages (query : Query) : List Stage :=
  (query.filter.map Stage.filter).toList ++
  (if query.ordering.isEmpty then [] else [.sort (query.ordering.map OrderingTerm.sortKey)]) ++
  resultStages query.result ++
  (query.range.map fun range => Stage.range (.between range.first range.stop)).toList

/-- Reads the values of parameters. -/
def readParameters : Bindings Json → Naming (Bindings Value)
  | [] => return []
  | (name, json) :: rest => return (name, ← Value.ofJson json) :: (← readParameters rest)

/-- The rows or an error, and what was reported on the way. -/
structure Outcome where
  rows : Except QueryError (List Value)
  trace : Trace

/-- Reads all rows of a cursor. -/
def runCursor (cursor : Cursor) : Outcome :=
  match (Cursor.Running.start cursor).init with
  | (.error error, running) => ⟨.error error, running.progress.trace⟩
  | (.ok (), running) =>
    match running.readAll with
    | ((_, some error), running) => ⟨.error error, running.progress.trace⟩
    | ((rows, none), running) => ⟨.ok rows, running.progress.trace⟩

/-- What the stages of the query have in common. -/
def scope (query : Query) (registry : Registry) (access : FieldAccess)
    (parameters : Bindings Value) : Cursor.Scope :=
  ⟨⟨query.catalog, registry, access⟩, query.candidateName, parameters, query.declared⟩

/-- Runs the query over candidates. -/
def execute (query : Query) (registry : Registry) (access : FieldAccess) (candidates : List Value) :
    Naming Outcome := do
  let parameters ← readParameters query.parameters
  return runCursor (.ofStages (query.scope registry access parameters) candidates query.stages)

end Query

end ObjectQuery
