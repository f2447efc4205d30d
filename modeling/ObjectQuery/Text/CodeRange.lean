import ObjectQuery.Text.Hexadecimal
import ObjectQuery.Text.Span

/-!
Ranges of code points, and the text in which tables of them are kept: hexadecimal ranges such as
`41-5A`, with `/2` behind a range of which every other code point counts.
-/

namespace ObjectQuery

/-- Every `step`-th code point from `first` to `last`. -/
structure CodeRange where
  first : Nat
  last : Nat
  step : Nat
deriving DecidableEq, Repr

namespace CodeRange

def contains (r : CodeRange) (code : Nat) : Bool :=
  r.first ≤ code && code ≤ r.last && (code - r.first) % r.step == 0

/-- The codes of a range as spans. -/
def spans (r : CodeRange) : List Span :=
  if r.step ≤ 1 then [⟨r.first, r.last⟩]
  else (List.range ((r.last - r.first) / r.step + 1)).map fun n => .single (r.first + n * r.step)

/-- The number of hexadecimal digits. -/
def hexValue (digits : List Char) : Nat :=
  digits.foldl (fun value digit => value * 16 + (Hexadecimal.digit? digit).getD 0) 0

/-- The parts of a text between separators. -/
def pieces (isSeparator : Char → Bool) : List Char → List (List Char)
  | [] => [[]]
  | c :: rest =>
    match isSeparator c, pieces isSeparator rest with
    | true, found => [] :: found
    | false, piece :: found => (c :: piece) :: found
    | false, [] => [[c]]

/-- Reads a range. -/
def ofText? (word : List Char) : Option CodeRange :=
  let (bounds, step) := match pieces (· == '/') word with
    | [bounds, step] => (bounds, hexValue step)
    | _ => (word, 1)
  match pieces (· == '-') bounds with
  | [[]] => none
  | [single] => some ⟨hexValue single, hexValue single, step⟩
  | [first, last] => some ⟨hexValue first, hexValue last, step⟩
  | _ => none

/-- Reads ranges with blanks between them. -/
def listOfText (text : String) : List CodeRange :=
  (pieces (fun c => c == ' ' || c == '\n') text.toList).filterMap ofText?

end CodeRange

end ObjectQuery
