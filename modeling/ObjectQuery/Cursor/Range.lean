import ObjectQuery.Cursor

/-!
Ranges of what a cursor gives: some values are dropped, and of the others at most so many are given.
-/

namespace ObjectQuery.Cursor

/-- Which of the values are given. -/
structure Range where
  skip : Nat
  /-- How many values are given at most, without bound if nothing is said. -/
  take : Option Nat
deriving DecidableEq, Repr

/-- The values from one place up to but not including another; nothing if they cross. -/
def Range.between (first : Nat) (stop : Option Nat) : Range := ⟨first, stop.map (· - first)⟩

/-- Drops values that are to be skipped, as far as there are any. -/
def dropValues (child : Cursor) (take : Option Nat) :
    Nat → Work (Layer child.State (Option Range)) Bool
  | 0 => return true
  | skip + 1 => do
    match ← Work.below child.next with
    | none => return false
    | some _ =>
      Work.setOwn (some ⟨skip, take⟩)
      dropValues child take skip

/-- A range of the values. The cursor's own state is the range that is left. -/
def range (extent : Range) (child : Cursor) : Cursor where
  State := Layer child.State (Option Range)
  start := ⟨child.start, none⟩
  init := do
    if (← Work.own).isNone then
      Work.below child.init
      Work.setOwn (some extent)
  next := do
    match ← Work.own with
    | none => throw .notInitialised
    | some left =>
      if left.take = some 0 then return none
      else if ← dropValues child left.take left.skip then
        match ← Work.below child.next with
        | none => return none
        | some value =>
          Work.setOwn (some ⟨0, left.take.map (· - 1)⟩)
          return some value
      else return none
  remaining state := child.remaining state.below

end ObjectQuery.Cursor
