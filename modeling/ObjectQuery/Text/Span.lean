/-!
Spans of natural numbers and sets that are lists of them. In normal form the spans of a list are in
order and keep a distance, so that each set has one such list.
-/

namespace ObjectQuery

/-- The numbers from one to another. -/
structure Span where
  first : Nat
  last : Nat
deriving DecidableEq, Repr

namespace Span

def single (n : Nat) : Span := ⟨n, n⟩

def contains (s : Span) (n : Nat) : Bool := s.first ≤ n && n ≤ s.last

/-- The part of a span within another. -/
def clip? (s within : Span) : Option Span :=
  let first := max s.first within.first
  let last := min s.last within.last
  if first ≤ last then some ⟨first, last⟩ else none

/-- Joins a span with those behind it, which begin no earlier, where they overlap or touch. -/
def joinFrom (current : Span) : List Span → List Span
  | [] => [current]
  | s :: rest =>
    if s.first ≤ current.last + 1 then joinFrom ⟨current.first, max current.last s.last⟩ rest
    else current :: joinFrom s rest

/-- Joins spans that touch, the first of which starts first. -/
def join : List Span → List Span
  | [] => []
  | s :: rest => joinFrom s rest

/-- The spans in order, those that touch joined. -/
def normalize (spans : List Span) : List Span :=
  join (spans.mergeSort fun s t => s.first ≤ t.first)

/-- The numbers from `start` to `last` that lie in none of the spans, which are in normal form. -/
def gaps (last : Nat) : Nat → List Span → List Span
  | start, [] => if start ≤ last then [⟨start, last⟩] else []
  | start, s :: rest =>
    let behind := gaps last (max start (s.last + 1)) rest
    if start < s.first then ⟨start, s.first - 1⟩ :: behind else behind

/-- The elements of a list, in the order of their keys, whose keys lie in one of the spans, which
are in normal form. -/
def select {α : Type} (key : α → Nat) : List Span → List α → List α
  | [], _ => []
  | _, [] => []
  | s :: spans, x :: xs =>
    if key x < s.first then select key (s :: spans) xs
    else if key x ≤ s.last then x :: select key (s :: spans) xs
    else select key spans (x :: xs)
termination_by spans xs => spans.length + xs.length

end Span

end ObjectQuery
