import ObjectQuery.Pattern.CharClass
import ObjectQuery.Pattern.Search
import ObjectQuery.Pattern.Size

/-!
Reading of patterns: groups, flags, repetition, anchors and sequences.
-/

namespace ObjectQuery.Pattern

open Scan

/-! ### Groups, repetition and sequences -/

/-- What a bracket and a question mark introduce. -/
inductive Opening where
  | group (captures : Bool) (flags : Flags)
  | directive (flags : Flags)

/-- Reads letters of flags up to their end. -/
def flagLetters : Nat → List Char → Bool → Flags → Scan Opening
  | 0, _, _, _ => failure
  | fuel + 1, seen, dangling, flags => do
    let c ← next
    match c with
    | ':' => if dangling then failure else return .group false flags
    | ')' => if dangling || seen.isEmpty then failure else return .directive flags
    | '-' =>
      if seen.contains '-' then failure
      flagLetters fuel ('-' :: seen) true flags
    | c =>
      if seen.contains c then failure
      flagLetters fuel (c :: seen) false (← flags.set? c (!seen.contains '-'))

/-- Whether a character may stand in the name of a group. -/
def isNameChar (isFirst : Bool) (c : Char) : Bool :=
  c == '_' || CharSet.alphabetic.contains c ||
    (!isFirst && (c == '.' || c == '[' || c == ']' || CharSet.number.contains c))

/-- Reads the name of a group, which must be new. -/
def groupName : Scan Unit := do
  let here ← rest
  let name := here.takeWhile (· != '>')
  match name, here.dropWhile (· != '>') with
  | first :: others, '>' :: behind =>
    if isNameChar true first && others.all (isNameChar false) then
      let name := String.ofList name
      if (← get).groupNames.contains name then failure
      modify fun place => { place with rest := behind, groupNames := name :: place.groupNames }
    else failure
  | _, _ => failure

/-- Reads what stands behind an opening bracket. -/
def opening : Scan Opening := do
  let flags ← flags
  pass
  if (← takeText "?=") || (← takeText "?!") || (← takeText "?<=") || (← takeText "?<!") then failure
  if ← takeText "?P<" then
    groupName
    return .group true flags
  if ← takeText "?<" then
    groupName
    return .group true flags
  if ← takeText "?" then flagLetters ((← rest).length + 1) [] false flags
  else return .group true flags

/-- Reads a count, with blanks around it. -/
def decimal : Scan Nat := do
  setRest ((← rest).dropWhile isBlank)
  let digits ← takeWhile Char.isDigit (← rest).length
  setRest ((← rest).dropWhile isBlank)
  if digits.isEmpty then failure
  let value := digits.foldl (fun value c => value * 10 + (c.toNat - '0'.toNat)) 0
  if value < UInt32.size then return value else failure

/-- Passes a mark that makes no difference to whole texts. -/
def laziness : Scan Unit := do
  if (← peek?) == some '?' then skip

/-- Reads the counts between braces. -/
def counts : Scan (Nat × Option Nat) := do
  let _ ← advance
  let least ← decimal
  let bounds ← match (← peek) with
    | ',' => do
      match (← advance) with
      | '\x7d' => pure (least, none)
      | _ => do
        let most ← decimal
        pure (least, some most)
    | _ => pure (least, some least)
  if (← peek) != '\x7d' then failure
  pass
  laziness
  match bounds with
  | (least, some most) => if most < least then failure else return bounds
  | _ => return bounds

/-- The start or the end of a text or of a line, as the flags say. -/
def lineAnchor (isStart : Bool) : Scan Anchor := do
  let flags ← flags
  match isStart, flags.multiLine, flags.anyLineBreak with
  | true, false, _ => return .textStart
  | false, false, _ => return .textEnd
  | true, true, false => return .lineStart
  | false, true, false => return .lineEnd
  | true, true, true => return .lineStartAnyBreak
  | false, true, true => return .lineEndAnyBreak

/-- Reads a part that is no group and no class. -/
def primitive : Scan Pattern := do
  match ← peek with
  | '\\' =>
    match ← escape with
    | .char c => return .one (← literalSet c)
    | .set s => return .one s
    | .anchor a => return .anchor a
  | '.' =>
    skip
    return .one (← dotSet)
  | '^' =>
    skip
    return .anchor (← lineAnchor true)
  | '$' =>
    skip
    return .anchor (← lineAnchor false)
  | c =>
    skip
    return .one (← literalSet c)

/-- A part of a sequence: a pattern, or flags that are set from there on. -/
abbrev Part := Option (Nested Pattern)

/-- The sequence of the parts read, last one first; flags that are set in between match nothing. -/
def joined (parts : List Part) : Nested Pattern :=
  let pattern := match parts.filterMap id with
    | [] => .empty
    | last :: before => before.foldl (fun rest p => .seq p.value rest) last.value
  ⟨pattern, Nested.depthOf (parts.map fun part => (part.map Nested.depth).getD 0)⟩

/-- One of several patterns. -/
def oneOf : List Pattern → Pattern
  | [] => .empty
  | [p] => p
  | p :: rest => .alt p (oneOf rest)

/-- One of several parts. -/
def choice (parts : List (Nested Pattern)) : Nested Pattern :=
  ⟨oneOf (parts.map Nested.value), Nested.depthOf (parts.map Nested.depth)⟩

mutual

/-- Reads alternatives up to the end of the group. -/
def alternatives : Nat → Scan (List (Nested Pattern))
  | 0 => failure
  | fuel + 1 => do
    let first ← sequence fuel []
    if (← peek?) == some '|' then
      skip
      return first :: (← alternatives fuel)
    else return [first]

/-- Reads one alternative; the parts read so far are given last one first. -/
def sequence : Nat → List Part → Scan (Nested Pattern)
  | 0, _ => failure
  | fuel + 1, parts => do
    skipBlank
    let repeated (least : Nat) (most : Option Nat) : Scan (Nested Pattern) := do
      match parts with
      | some p :: before =>
        sequence fuel (some ⟨.times p.value least most, p.depth + 1⟩ :: before)
      | _ => failure
    match ← peek? with
    | none | some '|' | some ')' => return joined parts
    | some '(' =>
      let outer ← flags
      match ← opening with
      | .directive flags =>
        setFlags flags
        sequence fuel (none :: parts)
      | .group captures flags =>
        setFlags flags
        let p := choice (← alternatives fuel)
        expect ')'
        setFlags outer
        sequence fuel (some ⟨.group captures p.value, p.depth + 1⟩ :: parts)
    | some '[' =>
      let set ← bracket fuel
      sequence fuel (some ⟨.one set.value, set.depth⟩ :: parts)
    | some '*' =>
      skip
      laziness
      repeated 0 none
    | some '+' =>
      skip
      laziness
      repeated 1 none
    | some '?' =>
      skip
      laziness
      repeated 0 (some 1)
    | some '\x7b' =>
      let (least, most) ← counts
      repeated least most
    | some _ => sequence fuel (some (.flat (← primitive)) :: parts)

end

/-- How deep a pattern may be nested. -/
def depthLimit : Nat := 250

/-- Reads a pattern within the limits. -/
def read? (text : String) : Option Pattern := do
  let cs := text.toList
  let (parts, place) ← (alternatives (2 * cs.length + 2)).run ⟨cs, .default, []⟩
  let p := choice parts
  if place.rest.isEmpty && p.depth ≤ depthLimit && p.value.fits then some p.value else none

/-- A pattern's text between anchors at both ends. The text is not looked into, so brackets in it
may close the group around it. -/
def anchored (pattern : String) : String := "^(?:" ++ pattern ++ ")$"

/-- Whether a text matches a pattern as a whole; none if the pattern is invalid. -/
def fullMatch? (pattern text : String) : Option Bool :=
  (read? (anchored pattern)).map fun p => p.isMatch text

end ObjectQuery.Pattern
