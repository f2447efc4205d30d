import ObjectQuery.Text.CharSet

/-!
The code points of a set of characters, as spans in normal form.
-/

namespace ObjectQuery.CharSet

def surrogates : Span := ⟨0xD800, 0xDFFF⟩

def lastCode : Nat := 0x10FFFF

/-- The codes of characters outside of spans. -/
def spansOutside (spans : List Span) : List Span :=
  Span.gaps lastCode 0 (Span.normalize (surrogates :: spans))

/-- Every letter that case folding changes, with the one it becomes, in the order of the first. -/
def folded : List (Nat × Nat) :=
  CaseTable.fold.flatMap fun (first, last, step, shift) =>
    (List.range ((last - first) / step + 1)).map fun n =>
      (first + n * step, ((first + n * step : Nat) + shift).toNat)

/-- The changes of case in the order of what they lead to. -/
def foldedByTarget : List (Nat × Nat) := folded.mergeSort fun p q => p.2 ≤ q.2

/-- The letters that differ from one of a set only in case, as far as folding changes them or makes
them of another. -/
def caseVariantSpans (spans : List Span) : List Span :=
  let targets := (Span.select (·.1) spans folded ++ Span.select (·.2) spans foldedByTarget).map
    fun p => Span.single p.2
  (Span.select (·.2) (Span.normalize targets) foldedByTarget).flatMap fun p =>
    [.single p.1, .single p.2]

/-- The codes of a set as spans that do not touch. -/
def spans : CharSet → List Span
  | codes ranges => Span.normalize (ranges.flatMap CodeRange.spans)
  | complement s => spansOutside (spans s)
  | union s t => Span.normalize (spans s ++ spans t)
  | inter s t => spansOutside (spansOutside (spans s) ++ spansOutside (spans t))
  | foldCase s =>
    let own := spans s
    Span.normalize (own ++ caseVariantSpans own)

end ObjectQuery.CharSet
