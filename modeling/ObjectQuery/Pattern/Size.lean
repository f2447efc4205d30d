import ObjectQuery.Pattern
import ObjectQuery.Text.ByteRanges
import ObjectQuery.Text.CharSet.Spans

/-!
How large the machines are that a pattern is compiled to. A machine reads a text byte by byte, one
from its beginning and one from its end, and has a state for each thing that it may wait for.
Parts that are repeated a number of times are compiled as often, so that a short pattern may need a
machine that is too large.
-/

namespace ObjectQuery.Pattern

/-- Bytes that the machines need that read forward and backward. -/
structure Sizes where
  forward : Nat
  backward : Nat
deriving DecidableEq, Repr

namespace Sizes

/-- The same size in both directions. -/
def both (n : Nat) : Sizes := ⟨n, n⟩

/-- Sizes of two parts together. -/
def add (s t : Sizes) : Sizes := ⟨s.forward + t.forward, s.backward + t.backward⟩

/-- The size of so many copies. -/
def scale (s : Sizes) (n : Nat) : Sizes := ⟨n * s.forward, n * s.backward⟩

/-- The size of all parts together. -/
def total (sizes : List Sizes) : Sizes := sizes.foldl add (both 0)

end Sizes

/-- A state of a machine. -/
def stateSize : Nat := 32

/-- A way on from a state that tells spans of bytes apart. -/
def branchSize : Nat := 8

/-- A way on from a state that reads nothing. -/
def linkSize : Nat := 4

/-! ### Choices of characters -/

/-- The sets of byte sequences that can be left to read while one of the given ones is read. -/
def remainders : Nat → List ByteSequence → List (List ByteSequence)
  | 0, _ => []
  | bytes + 1, sequences =>
    sequences :: (ByteSequence.byFirst sequences).flatMap fun (_, tails) =>
      if tails.all List.isEmpty then [] else remainders bytes tails

/-- A key by which sequences of ranges are told apart. -/
def encoded (sequences : List ByteSequence) : List Nat :=
  sequences.flatMap fun sequence => sequence.flatMap (fun s => [s.first + 1, s.last + 1]) ++ [0]

/-- Whether a word does not come after another in a dictionary. -/
def notAfter : List Nat → List Nat → Bool
  | [], _ => true
  | _ :: _, [] => false
  | m :: s, n :: t => m < n || (m == n && notAfter s t)

/-- The words without those equal to the one before. -/
def withoutRepeats : List (List Nat × Nat) → List (List Nat × Nat)
  | x :: y :: rest =>
    if x.1 = y.1 then withoutRepeats (y :: rest) else x :: withoutRepeats (y :: rest)
  | xs => xs

/-- Forward, what is left to read makes a state, and equal rests share one. -/
def sharedSize (sequences : List ByteSequence) : Nat :=
  let states := (remainders 4 sequences).map fun rest =>
    (encoded rest, (ByteSequence.byFirst rest).length)
  let different := withoutRepeats (states.mergeSort fun s t => notAfter s.1 t.1)
  different.foldl (fun size state => size + stateSize + branchSize * state.2) stateSize

/-- How many states the shared beginnings of sequences take. -/
def beginnings : Nat → List ByteSequence → Nat
  | 0, _ => 0
  | bytes + 1, sequences =>
    (ByteSequence.byFirst sequences).foldl
      (fun count (_, tails) => count + 1 + beginnings bytes tails) 0

/-- Backward, sequences share the states of what they begin with, which is read last. -/
def unsharedSize (sequences : List ByteSequence) : Nat :=
  2 * stateSize + stateSize * beginnings 4 sequences + linkSize * sequences.length

/-- What a choice of characters needs. Where all of them are single bytes, one state is enough to
tell them apart. -/
def choiceSizes (spans : List Span) : Sizes :=
  if spans.all fun s => s.last < 0x80 then
    .both (2 * stateSize + branchSize * spans.length)
  else
    let sequences := spans.flatMap ByteSequence.ofSpan
    ⟨sharedSize sequences, unsharedSize sequences⟩

/-! ### Alternatives of plain texts -/

/-- What the states need that tell texts apart by their first bytes; the ends of texts are one
state, which is not counted. -/
def treeSize : Nat → List (List Nat) → Nat
  | 0, _ => 0
  | fuel + 1, texts =>
    let groups := ByteSequence.byFirst (texts.map (·.map Span.single))
    let own := stateSize + (if groups.length = 1 then 0 else branchSize * groups.length)
    let link := stateSize + linkSize * (if texts.any List.isEmpty then 2 else 1)
    groups.foldl (fun size (_, tails) =>
      if tails.all List.isEmpty then size
      else size + treeSize fuel (tails.map (·.map Span.first))) (own + link)

/-- The bytes of characters. -/
def bytesOf (cs : List Char) : List Nat :=
  (String.ofList cs).toUTF8.toList.map UInt8.toNat

/-- The size of a choice between texts. -/
def textsSizes (texts : List (List Char)) : Sizes :=
  let spelled := texts.map bytesOf
  let longest := (spelled.map List.length).foldl max 0
  let size (texts : List (List Nat)) : Nat :=
    stateSize + treeSize longest (texts.mergeSort notAfter)
  ⟨size spelled, size (spelled.map List.reverse)⟩

/-! ### Patterns -/

/-- What a part needs, whether whatever it matches has a character at least, and whether it can
match nothing but the empty text. -/
structure Measure where
  sizes : Sizes
  reads : Bool
  readsNothing : Bool

/-- What decides the size of a pattern. -/
inductive Outline where
  | empty
  /-- A plain text of at least one character. -/
  | text (cs : List Char)
  /-- One character from spans that do not hold just a single one. -/
  | choice (spans : List Span)
  | branches (parts : List Outline) (measure : Measure)
  | other (measure : Measure)

namespace Outline

/-- The measure of an outline. -/
def measure : Outline → Measure
  | empty => ⟨.both stateSize, false, true⟩
  | text cs => ⟨.both (stateSize * (bytesOf cs).length), true, false⟩
  | choice spans => ⟨choiceSizes spans, !spans.isEmpty, false⟩
  | branches _ measure | other measure => measure

/-- The outline of a set of characters. -/
def ofSpans (spans : List Span) : Outline :=
  match spans with
  | [s] => if s.first = s.last then text [Char.ofNat s.first] else choice spans
  | _ => choice spans

/-- The outline of two parts in a row, texts joined. -/
def seq : Outline → Outline → Outline
  | empty, q => q
  | p, empty => p
  | text s, text t => text (s ++ t)
  | p, q =>
    let m := p.measure
    let n := q.measure
    other ⟨m.sizes.add n.sizes, m.reads || n.reads, m.readsNothing && n.readsNothing⟩

/-- The characters of an outline that is a single one. -/
def spans? : Outline → Option (List Span)
  | text [c] => some [.single c.toNat]
  | choice spans => some spans
  | _ => none

/-- The text of an outline that is one. -/
def text? : Outline → Option (List Char)
  | text cs => some cs
  | _ => none

/-- The alternatives of an outline. -/
def alternatives : Outline → List Outline
  | branches parts _ => parts
  | p => [p]

/-- What alternatives come to: a choice if each is one of characters, else a state that leads to
each and one behind all of them. -/
def oneOf (parts : List Outline) : Outline :=
  match parts.flatMap alternatives with
  | [p] => p
  | parts =>
    match parts.mapM spans? with
    | some spans => ofSpans (Span.normalize spans.flatten)
    | none =>
      let measures := parts.map measure
      let sizes := match parts.mapM text? with
        | some texts => textsSizes texts
        | none =>
          (Sizes.total (measures.map Measure.sizes)).add
            (.both (2 * stateSize + linkSize * parts.length))
      branches parts ⟨sizes, measures.all Measure.reads, measures.all Measure.readsNothing⟩

/-- A state that leads to a part and past it. -/
def forkSize : Nat := stateSize + 2 * linkSize

/-- The size of a repetition. -/
def repeatedSizes (part : Measure) (least : Nat) (most : Option Nat) : Sizes :=
  match least, most with
  | 0, some 1 => part.sizes.add (.both (forkSize + stateSize))
  | 0, none =>
    if part.reads then part.sizes.add (.both forkSize)
    else part.sizes.add (.both (2 * forkSize + stateSize))
  | least, none => (part.sizes.scale least).add (.both forkSize)
  | least, some most =>
    if least = most then part.sizes.scale least
    else
      let always := if least = 0 then .both stateSize else part.sizes.scale least
      let further := (part.sizes.add (.both forkSize)).scale (most - least)
      (always.add further).add (.both stateSize)

/-- A part that is repeated; one that reads nothing is tried once at most. -/
def times (p : Outline) (least : Nat) (most : Option Nat) : Outline :=
  let part := p.measure
  let least := if part.readsNothing then min least 1 else least
  let most := if part.readsNothing then some (min (most.getD 1) 1) else most
  match least, most with
  | 0, some 0 => empty
  | 1, some 1 => p
  | least, most =>
    other ⟨repeatedSizes part least most, least != 0 && part.reads, part.readsNothing⟩

/-- A part that keeps what it matches, for which a state on either side is needed; what was matched
is found on the way forward alone. -/
def kept (p : Outline) : Outline :=
  let part := p.measure
  other { part with sizes := part.sizes.add ⟨2 * stateSize, 0⟩ }

end Outline

/-- The outlines of a pattern's alternatives. -/
def outlines : Pattern → List Outline
  | empty => [.empty]
  | one set => [.ofSpans set.spans]
  | anchor _ => [.other ⟨.both stateSize, false, true⟩]
  | seq p q => [(Outline.oneOf (outlines p)).seq (.oneOf (outlines q))]
  | alt p q => Outline.oneOf (outlines p) :: outlines q
  | times p least most => [(Outline.oneOf (outlines p)).times least most]
  | group captures p =>
    let inner := Outline.oneOf (outlines p)
    [if captures then inner.kept else inner]

/-- What the machines of a pattern need. Each has a state at the beginning and one for a match, and
the whole match is kept. -/
def sizes (p : Pattern) : Sizes :=
  (Outline.oneOf (outlines p)).kept.measure.sizes.add (.both (2 * stateSize))

/-- How large a compiled pattern may be in either direction. -/
def sizeLimit : Nat := 10485760

/-- Whether a pattern is within the limit. -/
def fits (p : Pattern) : Bool := p.sizes.forward ≤ sizeLimit && p.sizes.backward ≤ sizeLimit

end ObjectQuery.Pattern
