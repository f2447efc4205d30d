import ObjectQuery.Pattern
import ObjectQuery.Pattern.Scan
import ObjectQuery.Text.CharSet.Boundary

/-!
Reading of what a pattern says about a single character: the character itself, escapes, and classes
by name or in square brackets.
-/

namespace ObjectQuery.Pattern

open Scan

/-! ### Sets under the flags in force -/

/-- A set as the flags widen it: by all letters that differ only in case, or by the ASCII ones among
them where Unicode is switched off. -/
def widen (set : CharSet) : Scan CharSet := do
  let flags ← flags
  return if !flags.ignoreCase then set
    else if flags.unicode then .foldCase set
    else .union set (.inter .ascii (.foldCase (.inter .ascii set)))

/-- The characters that a letter of the pattern stands for. -/
def literalSet (c : Char) : Scan CharSet := widen (.single c)

/-- The complement of a set; without Unicode it would hold half characters, which is refused. -/
def complementSet (set : CharSet) : Scan CharSet := do
  if (← flags).unicode then return .complement set else failure

/-- The set widened by case if the flags say so, and then its complement if asked for. -/
def foldAndNegate (negated : Bool) (set : CharSet) : Scan CharSet := do
  let set ← widen set
  if negated then complementSet set else return set

/-- The characters that a dot stands for. -/
def dotSet : Scan CharSet := do
  let flags ← flags
  if !flags.unicode then failure
  return if flags.dotMatchesNewline then .any
    else if flags.anyLineBreak then .complement (.union (.single '\n') (.single '\r'))
    else .complement (.single '\n')

/-- The class of a letter behind a backslash. -/
def letterClass (letter : Char) : Scan CharSet := do
  let unicode := (← flags).unicode
  let digit := if unicode then .digit else .ofRanges "30-39"
  let space := if unicode then .space else .ofRanges "9-D 20"
  let word := if unicode then .word else .ofRanges "30-39 41-5A 5F 61-7A"
  match letter with
  | 'd' => return digit
  | 's' => return space
  | 'w' => return word
  | 'D' => complementSet digit
  | 'S' => complementSet space
  | 'W' => complementSet word
  | _ => failure

/-- A name without case and separators, and without `is` in front. -/
def plainName (name : List Char) : String :=
  let (isPrefixed, name) := match name with
    | c :: d :: rest => if c.toLower == 'i' && d.toLower == 's' then (true, rest) else (false, name)
    | _ => (false, name)
  let isDropped (c : Char) : Bool := c == ' ' || c == '_' || c == '-' || 0x7F < c.toNat
  let kept := String.ofList ((name.filter (!isDropped ·)).map Char.toLower)
  if isPrefixed && kept == "c" then "isc" else kept

/-- The set of a name: a property, a category or a script. -/
def namedSet? (name : List Char) : Option CharSet :=
  let name := plainName name
  (CharSet.property? name) <|> (CharSet.category? name) <|> (CharSet.script? name)

/-- The characters for which a property has a value. -/
def valueSet? (property value : List Char) : Option CharSet :=
  let value := plainName value
  match plainName property with
  | "gc" | "generalcategory" => CharSet.category? value
  | "sc" | "script" => CharSet.script? value
  | "scx" | "scriptextensions" => CharSet.scriptExtension? value
  | "age" => CharSet.edition? value
  | "gcb" | "graphemeclusterbreak" => CharSet.clusterPart? value
  | "wb" | "wordbreak" => CharSet.wordPart? value
  | "sb" | "sentencebreak" => CharSet.sentencePart? value
  | _ => none

/-- What stands before and behind the first separator. -/
def partAt? (separator : List Char) : List Char → Option (List Char × List Char)
  | [] => none
  | c :: rest =>
    if separator.isPrefixOf (c :: rest) then some ([], (c :: rest).drop separator.length)
    else (partAt? separator rest).map fun (front, back) => (c :: front, back)

/-- The characters up to a closing brace. -/
def untilBrace : Nat → Scan (List Char)
  | 0 => failure
  | fuel + 1 => do
    let c ← advance
    if c == '\x7d' then
      skip
      return []
    else return c :: (← untilBrace fuel)

/-- The class behind `\p` or `\P`, of a one-letter name or of what stands in braces. The sign
between a property and its value may be an equals sign, a colon or `!=`, and all of them mean the
same. -/
def propertyClass (negated : Bool) : Scan CharSet := do
  if !(← flags).unicode then failure
  let c ← advance
  if c == '\x7b' then
    let name ← untilBrace (← rest).length
    let set ← match (partAt? ['!', '='] name) <|> (partAt? [':'] name) <|> (partAt? ['='] name) with
      | some (property, value) => valueSet? property value
      | none => namedSet? name
    foldAndNegate negated set
  else
    if c == '\\' then failure
    pass
    foldAndNegate negated (← namedSet? [c])

/-! ### Escapes -/

/-- Whether a character has a meaning of its own. -/
def isMeta (c : Char) : Bool :=
  ['\\', '.', '+', '*', '?', '(', ')', '|', '[', ']', '\x7b', '\x7d', '^', '$', '#', '&', '-',
    '~'].contains c

/-- Characters that a backslash makes literal: ASCII ones other than letters, digits and angles. -/
def isEscapable (c : Char) : Bool :=
  isMeta c || (c.toNat ≤ 0x7F && !c.isAlphanum && c != '<' && c != '>')

/-- The character of a code, if it has one. -/
def scalar? (code : Nat) : Option Char := if code.isValidChar then some (Char.ofNat code) else none

/-- So many hexadecimal digits, behind those read already. -/
def hexDigits : Nat → Nat → Scan Nat
  | 0, value => return value
  | count + 1, value => do
    let value := value * 16 + (← Hexadecimal.digit? (← peek))
    pass
    hexDigits count value

/-- A character by its code: digits in braces, or as many as the letter asks for. -/
def hexEscape (digits : Nat) : Scan Char := do
  let c ← advance
  let code ←
    if c == '\x7b' then
      let found ← untilBrace (← rest).length
      if found.isEmpty then failure
      found.foldlM (fun value c => do return value * 16 + (← Hexadecimal.digit? c)) 0
    else
      let code ← hexDigits digits 0
      if digits = 2 && 0x7F < code && !(← flags).unicode then failure
      pure code
  scalar? code

/-- What a backslash introduces. -/
inductive Escape where
  | char (c : Char)
  | set (s : CharSet)
  | anchor (a : Anchor)

/-- The characters of words. -/
def wordSet : Scan CharSet := letterClass 'w'

/-- A word boundary, of a special kind if a name in braces follows; braces with anything else in
them are left for a repetition. -/
def boundary : Scan Anchor := do
  let word ← wordSet
  let before ← get
  if (← peek?) != some '\x7b' then return .wordBoundary word
  let isNameLetter (c : Char) : Bool := c.isAlpha || c == '-'
  if !isNameLetter (← advance) then
    set before
    return .wordBoundary word
  let name ← takeWhile isNameLetter (← rest).length
  expect '\x7d'
  match String.ofList name with
  | "start" => return .wordStart word
  | "end" => return .wordEnd word
  | "start-half" => return .wordStartHalf word
  | "end-half" => return .wordEndHalf word
  | _ => failure

/-- Reads what stands behind a backslash. -/
def escape : Scan Escape := do
  skip
  let c ← peek
  match c with
  | 'x' => return .char (← hexEscape 2)
  | 'u' => return .char (← hexEscape 4)
  | 'U' => return .char (← hexEscape 8)
  | 'p' => return .set (← propertyClass false)
  | 'P' => return .set (← propertyClass true)
  | _ =>
    skip
    match c with
    | 'd' | 's' | 'w' | 'D' | 'S' | 'W' => return .set (← letterClass c)
    | 'a' => return .char '\x07'
    | 'f' => return .char '\x0c'
    | 't' => return .char '\t'
    | 'n' => return .char '\n'
    | 'r' => return .char '\r'
    | 'v' => return .char '\x0b'
    | 'A' => return .anchor .textStart
    | 'z' => return .anchor .textEnd
    | 'b' => return .anchor (← boundary)
    | 'B' => return .anchor (.notWordBoundary (← wordSet))
    | '<' => return .anchor (.wordStart (← wordSet))
    | '>' => return .anchor (.wordEnd (← wordSet))
    | c => if isEscapable c then return .char c else failure

/-! ### Bracketed classes -/

/-- A named class within brackets: whether it is negated, its characters, and the text behind. -/
def asciiClass? (cs : List Char) : Option (Bool × CharSet × List Char) :=
  match cs with
  | '[' :: ':' :: rest =>
    let (negated, rest) := match rest with
      | '^' :: rest => (true, rest)
      | _ => (false, rest)
    let name := rest.takeWhile (· != ':')
    match rest.dropWhile (· != ':') with
    | ':' :: ']' :: rest =>
      (CharSet.asciiClass? (String.ofList name)).map fun set => (negated, set, rest)
    | _ => none
  | _ => none

/-- The operations between sets within brackets. -/
inductive SetOperation where
  | intersection
  | difference
  | symmetricDifference

/-- The set that an operation makes of two. -/
def SetOperation.apply : SetOperation → CharSet → CharSet → CharSet
  | intersection => CharSet.inter
  | difference => CharSet.difference
  | symmetricDifference => CharSet.symmetricDifference

/-- An operator between sets, which is a character written twice. -/
def setOperation? : List Char → Option SetOperation
  | '&' :: '&' :: _ => some .intersection
  | '-' :: '-' :: _ => some .difference
  | '~' :: '~' :: _ => some .symmetricDifference
  | _ => none

/-- One character of a class, written as itself or escaped, or the set of an escape. Without Unicode
only ASCII characters may stand there. -/
def classItem : Scan (Char ⊕ CharSet) := do
  let item ← match ← peek with
    | '\\' => escape
    | _ => return (← literalItem (← next))
  match item with
  | .char c => literalItem c
  | .set s => return .inr s
  | .anchor _ => failure
where
  literalItem (c : Char) : Scan (Char ⊕ CharSet) := do
    if (← flags).unicode || c.toNat ≤ 0x7F then return .inl c else failure

/-- An item of a class or a range between two characters. A hyphen in front of another one or of the
closing bracket makes no range. -/
def classRange : Scan CharSet := do
  let first ← classItem
  skipBlank
  let c ← peek
  let following ← following?
  if c != '-' || following == some ']' || following == some '-' then
    match first with
    | .inl c => return .single c
    | .inr s => return s
  else
    let _ ← advance
    match first, ← classItem with
    | .inl low, .inl high => if low ≤ high then return .range low high else failure
    | _, _ => failure

/-- What was read so far in a bracket: the set that the last operator joins to the rest, if there is
one, and the items behind it, last one first. -/
structure Gathered where
  before : Option (SetOperation × Nested CharSet)
  items : List (Nested CharSet)

namespace Gathered

def ofItems (items : List (Nested CharSet)) : Gathered := ⟨none, items⟩

/-- One more item. -/
def insert (g : Gathered) (item : Nested CharSet) : Gathered := { g with items := item :: g.items }

/-- The union of the items. -/
def union (g : Gathered) : Nested CharSet :=
  ⟨.unionList (g.items.map Nested.value), Nested.depthOf (g.items.map Nested.depth)⟩

/-- The set of what stands in a bracket up to here; sets on both sides of an operator are widened by
case before it is applied. -/
def total (g : Gathered) : Scan (Nested CharSet) := do
  let right := g.union
  match g.before with
  | none => return right
  | some (op, left) =>
    return ⟨op.apply (← widen left.value) (← widen right.value), max left.depth right.depth + 1⟩

end Gathered

/-- The hyphens at the front of a bracket, which stand for themselves. -/
def openingHyphens : Nat → Scan (List (Nested CharSet))
  | 0 => failure
  | fuel + 1 => do
    if (← peek) == '-' then
      let _ ← advance
      return .flat (.single '-') :: (← openingHyphens fuel)
    else return []

/-- What opens a class and would mean something else further on: hyphens, or a closing bracket if
there is none. -/
def openingItems (fuel : Nat) : Scan (List (Nested CharSet)) := do
  let hyphens ← openingHyphens fuel
  if hyphens.isEmpty && (← peek) == ']' then
    let _ ← advance
    return [.flat (.single ']')]
  else return hyphens

mutual

/-- Reads a class in brackets. -/
def bracket : Nat → Scan (Nested CharSet)
  | 0 => failure
  | fuel + 1 => do
    let negated := (← advance) == '^'
    if negated then
      let _ ← advance
    let found ← bracketRest fuel (.ofItems (← openingItems (fuel + 1)))
    return ⟨← foldAndNegate negated found.value, found.depth + 1⟩

/-- Reads what stands in brackets behind what is gathered. -/
def bracketRest : Nat → Gathered → Scan (Nested CharSet)
  | 0, _ => failure
  | fuel + 1, gathered => do
    skipBlank
    let here ← rest
    match here with
    | [] => failure
    | ']' :: rest =>
      setRest rest
      gathered.total
    | '[' :: _ =>
      match asciiClass? here with
      | some (negated, set, rest) =>
        setRest rest
        bracketRest fuel (gathered.insert (.flat (← foldAndNegate negated set)))
      | none => bracketRest fuel (gathered.insert (← bracket fuel))
    | _ =>
      match setOperation? here with
      | some op =>
        setRest (here.drop 2)
        bracketRest fuel ⟨some (op, ← gathered.total), []⟩
      | none => bracketRest fuel (gathered.insert (.flat (← classRange)))

end

end ObjectQuery.Pattern
