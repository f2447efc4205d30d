import ObjectQuery.Cursor.Range
import ObjectQuery.Cursor.Row
import ObjectQuery.Cursor.Selection
import ObjectQuery.Cursor.SortKey

/-!
Stacks of stages over a list of candidates.
-/

namespace ObjectQuery

/-- The stages of a query. -/
inductive Stage where
  | filter (condition : Expr)
  | sort (keys : List SortKey)
  | range (extent : Cursor.Range)
  | project (results : List Expr)
  | aggregate (results : List Expr)

namespace Stage

/-- The cursor of a stage over the one below. -/
def cursor (scope : Cursor.Scope) (number : Nat) (child : Cursor) : Stage → Cursor
  | filter condition => .filter scope number condition child
  | sort keys => .sort scope number keys child
  | range extent => .range extent child
  | project results => .project scope number results child
  | aggregate results => .aggregate scope number results child

end Stage

/-- The cursor of stages over candidates, the first stage lowest. Stages are numbered from one. -/
def Cursor.ofStages (scope : Cursor.Scope) (candidates : List Value) (stages : List Stage) :
    Cursor :=
  (stages.zipIdx 1).foldl (fun child (stage, number) => stage.cursor scope number child)
    (.scan candidates)

end ObjectQuery
