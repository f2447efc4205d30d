import ObjectQuery.Text.Span

/-!
How characters are spelled in bytes: the code points of a span, as sequences of spans of bytes. The
sequences of one span are in order, and no byte string belongs to two of them.
-/

namespace ObjectQuery

/-- Spans of bytes, one for each byte of a character. -/
abbrev ByteSequence := List Span

namespace ByteSequence

/-- The bytes behind the first one of a character. -/
def continuation : Span := ⟨0x80, 0xBF⟩

/-- The sequences for the numbers from `first` to `last`, written with a byte above `base` and a
number of bytes of six bits each behind it. -/
def ofBlock : (behind : Nat) → (base first last : Nat) → List ByteSequence
  | 0, base, first, last => [[⟨base + first, base + last⟩]]
  | behind + 1, base, first, last =>
    let size := Nat.pow 64 (behind + 1)
    let under (lead first last : Nat) : List ByteSequence :=
      (ofBlock behind 0x80 first last).map (.single (base + lead) :: ·)
    let low := first / size
    let high := last / size
    if low = high then under low (first % size) (last % size)
    else
      let isWholeAtStart := first % size = 0
      let isWholeAtEnd := last % size + 1 = size
      let start := if isWholeAtStart then [] else under low (first % size) (size - 1)
      let stop := if isWholeAtEnd then [] else under high 0 (last % size)
      let whole : Span :=
        ⟨if isWholeAtStart then low else low + 1, if isWholeAtEnd then high else high - 1⟩
      let middle :=
        if whole.first ≤ whole.last then
          [⟨base + whole.first, base + whole.last⟩ :: List.replicate (behind + 1) continuation]
        else []
      start ++ middle ++ stop

/-- The characters that are spelled with one to four bytes, with the first of these bytes at its
lowest and the number of the others; surrogates are left out. -/
def blocks : List (Span × Nat × Nat) :=
  [(⟨0, 0x7F⟩, 0, 0), (⟨0x80, 0x7FF⟩, 0xC0, 1), (⟨0x800, 0xD7FF⟩, 0xE0, 2),
    (⟨0xE000, 0xFFFF⟩, 0xE0, 2), (⟨0x10000, 0x10FFFF⟩, 0xF0, 3)]

/-- The sequences of bytes of the characters in a span. -/
def ofSpan (s : Span) : List ByteSequence :=
  blocks.flatMap fun (block, base, behind) =>
    match s.clip? block with
    | some part => ofBlock behind base part.first part.last
    | none => []

/-- Parts sequences by their first span; those with one in common stand side by side. -/
def byFirst : List ByteSequence → List (Span × List ByteSequence)
  | [] => []
  | [] :: rest => byFirst rest
  | (first :: others) :: rest =>
    match byFirst rest with
    | (next, tails) :: groups =>
      if first = next then (first, others :: tails) :: groups
      else (first, [others]) :: (next, tails) :: groups
    | [] => [(first, [others])]

end ByteSequence

end ObjectQuery
