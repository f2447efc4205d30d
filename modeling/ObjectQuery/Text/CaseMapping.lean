import ObjectQuery.Text.CaseTable
import ObjectQuery.Text.GeneralCategory

/-!
Full upper-case and lower-case mappings of texts, where one letter may become several and a sigma at
the end of a word has a form of its own, and the simple folding under which letters that differ only
in case are one.
-/

namespace ObjectQuery.CaseMapping

/-- The code that a table gives for a code. -/
def shifted (table : List (Nat × Nat × Nat × Int)) (code : Nat) : Nat :=
  match table.find? fun (first, last, step, _) =>
      first ≤ code && code ≤ last && (code - first) % step == 0 with
  | some (_, _, _, shift) => (code + shift).toNat
  | none => code

/-- The upper case of a character, which may be several. -/
def upperChar (c : Char) : List Char :=
  match CaseTable.upperExpansions.lookup c.toNat with
  | some codes => codes.map Char.ofNat
  | none => [Char.ofNat (shifted CaseTable.upper c.toNat)]

/-- A capital I with a dot keeps its dot; every other letter has one lower-case letter. -/
def lowerChar (c : Char) : List Char :=
  if c.toNat = 0x130 then ['i', Char.ofNat 0x307]
  else [Char.ofNat (shifted CaseTable.lower c.toNat)]

/-- The letter that stands for all letters which differ from `c` only in case. -/
def fold (c : Char) : Char := Char.ofNat (shifted CaseTable.fold c.toNat)

/-- The codes for which a table gives this code. -/
def unshifted (table : List (Nat × Nat × Nat × Int)) (code : Nat) : List Nat :=
  table.filterMap fun (first, last, step, shift) =>
    let source := (code : Int) - shift
    if 0 ≤ source then
      let source := source.toNat
      if first ≤ source && source ≤ last && (source - first) % step == 0 then some source else none
    else none

/-- The characters that differ from this one in case alone. -/
def caseVariants (c : Char) : List Char :=
  let folded := (fold c).toNat
  c :: (folded :: unshifted CaseTable.fold folded).map Char.ofNat

/-- Letters with case beyond those of the three cased categories. -/
def otherCased : List CodeRange :=
  CodeRange.listOfText "AA BA 2160-217F 24B6-24E9 1F130-1F149 1F150-1F169 1F170-1F189"

/-- Whether a character has a case. -/
def isCased (c : Char) : Bool :=
  GeneralCategory.lowercaseLetter.contains c || GeneralCategory.uppercaseLetter.contains c ||
    GeneralCategory.titlecaseLetter.contains c || otherCased.any (·.contains c.toNat)

/-- Punctuation within words. -/
def wordPunctuation : List CodeRange :=
  CodeRange.listOfText
    "27 2E 3A B7 387 55F 5F4 2018-2019 2024 2027 FE13 FE52 FE55 FF07 FF0E FF1A"

/-- Whether a character is passed over in the search for a cased one. -/
def isCaseIgnorable (c : Char) : Bool :=
  wordPunctuation.any (·.contains c.toNat) || GeneralCategory.nonspacingMark.contains c ||
    GeneralCategory.enclosingMark.contains c || GeneralCategory.format.contains c ||
    GeneralCategory.modifierLetter.contains c || GeneralCategory.modifierSymbol.contains c

/-- Whether the first character that is not ignorable has case. -/
def casedFollows (cs : List Char) : Bool :=
  ((cs.dropWhile isCaseIgnorable).head?.map isCased).getD false

/-- The letter whose lower case depends on its place. -/
def capitalSigma : Char := Char.ofNat 0x3A3

/-- Lower case of the characters that follow `before` (last one first): a capital sigma takes the
final form behind a cased letter and before none. -/
def lowerFrom (before : List Char) : List Char → List Char
  | [] => []
  | c :: rest =>
    let mapped :=
      if c == capitalSigma then
        [Char.ofNat (if casedFollows before && !casedFollows rest then 0x3C2 else 0x3C3)]
      else lowerChar c
    mapped ++ lowerFrom (c :: before) rest

def upper (s : String) : String := String.ofList (s.toList.flatMap upperChar)

def lower (s : String) : String := String.ofList (lowerFrom [] s.toList)

end ObjectQuery.CaseMapping
