import ObjectQuery.Cursor

/-!
Sorting by keys. Keys of different kinds are ordered by kind, numbers by magnitude with NaN at the
end; values without an order among themselves tie, and ties keep their order.
-/

namespace ObjectQuery

/-- Where nulls stand in a sorted list. -/
inductive NullPlacement where
  | first
  | last
deriving DecidableEq, Repr

/-- What candidates are sorted by. -/
structure SortKey where
  expr : Expr
  descending : Bool
  nulls : NullPlacement

namespace SortKey

/-- Where nulls go if nothing is said: to the small end. -/
def defaultNulls (descending : Bool) : NullPlacement := if descending then .last else .first

/-- The rank of a value's kind in a sorted list. -/
def kindRank (value : Value) : Nat :=
  if value.isNumeric then 0
  else match value with
    | .char _ | .string _ => 1
    | .boolean _ => 2
    | .type _ => 3
    | .object .. => 4
    | .array _ | .list _ | .set _ => 5
    | .map _ => 6
    | _ => 7

/-- Numbers by magnitude, infinities at the ends and NaN behind everything. -/
def numericOrder (left right : Value) : Ordering :=
  match left.compareNumbers? right with
  | some order => order
  | none =>
    let x := left.toDouble?.getD .nan
    let y := right.toDouble?.getD .nan
    match x.isNan, y.isNan with
    | true, true => .eq
    | true, false => .gt
    | false, true => .lt
    | false, false => (x.compare? y).getD .eq

/-- The order of two values other than null. -/
def totalOrder (left right : Value) : Ordering :=
  match compare (kindRank left) (kindRank right) with
  | .eq =>
    if kindRank left = 0 then numericOrder left right else (left.compare? right).getD .eq
  | byKind => byKind

/-- The order of two values of this key. Nulls stand where they are placed, in either direction. -/
def order (key : SortKey) (left right : Value) : Ordering :=
  match left.isNull, right.isNull with
  | true, true => .eq
  | true, false => if key.nulls = .first then .lt else .gt
  | false, true => if key.nulls = .first then .gt else .lt
  | false, false =>
    let order := totalOrder left right
    if key.descending then order.swap else order

/-- The order of two rows by their values of several keys, the first key that tells them apart. -/
def lexicographic : List SortKey → List Value → List Value → Ordering
  | key :: keys, left :: lefts, right :: rights =>
    (key.order left right).then (lexicographic keys lefts rights)
  | _, _, _ => .eq

/-- Puts an element among sorted ones, the greatest first: before the first that is not greater. -/
def insertBack {α : Type} (less : α → α → Bool) (x : α) : List α → List α
  | [] => [x]
  | y :: rest => if less x y then y :: insertBack less x rest else x :: y :: rest

/-- Sorts by insertion; elements of which neither is less keep their order. -/
def sortBy {α : Type} (less : α → α → Bool) (xs : List α) : List α :=
  (xs.foldl (fun sorted x => insertBack less x sorted) []).reverse

/-- A candidate with its values of the keys. -/
structure Keyed where
  values : List Value
  candidate : Value

/-- The candidates of rows in their order. -/
def sorted (keys : List SortKey) (rows : List Keyed) : List Value :=
  (sortBy (fun a b => lexicographic keys a.values b.values == .lt) rows).map Keyed.candidate

end SortKey

namespace Cursor

/-- Reads the candidates below with their values of the keys. -/
def readKeyed (scope : Scope) (stage : Nat) (keys : List SortKey) (child : Cursor) {τ : Type} :
    Nat → Context → Work (Layer child.State τ) (List SortKey.Keyed)
  | 0, _ => return []
  | fuel + 1, context => do
    match ← Work.below child.next with
    | none => return []
    | some candidate =>
      let (values, after) ← Work.evaluating (context.setCandidate candidate) (stageSupply stage 0)
        (keys.mapM fun key => key.expr.evaluateValue scope.environment)
      let values ← Work.ofExcept values
      return ⟨values, candidate⟩ :: (← readKeyed scope stage keys child fuel after)

/-- The candidates sorted by keys. All are read by `init`; the cursor's own state is what is left of
them. -/
def sort (scope : Scope) (stage : Nat) (keys : List SortKey) (child : Cursor) : Cursor where
  State := Layer child.State (Option (List Value))
  start := ⟨child.start, none⟩
  init := do
    if (← Work.own).isNone then
      Work.below child.init
      let left := child.remaining (← get).state.below
      let rows ← readKeyed scope stage keys child (left + 1) scope.context
      Work.setOwn (some (SortKey.sorted keys rows))
  next := do
    match ← Work.own with
    | none => throw .notInitialised
    | some [] => return none
    | some (value :: rest) =>
      Work.setOwn (some rest)
      return some value
  remaining state := (state.own.getD []).length

end Cursor

end ObjectQuery
