import ObjectQuery.Text.CharSet.Named

/-!
The place at which the reading of a pattern stands, and steps on from there. Flags take effect from
where they are set to the end of their group, so a pattern is read in one pass with the flags at
hand.
-/

namespace ObjectQuery.Pattern

/-- What the flags `i m s U u R x` switch on or off. -/
structure Flags where
  ignoreCase : Bool
  multiLine : Bool
  dotMatchesNewline : Bool
  swapGreed : Bool
  unicode : Bool
  anyLineBreak : Bool
  /-- Blanks and comments in the pattern are passed over. -/
  verbose : Bool

/-- The flags at the start of a pattern. -/
def Flags.default : Flags := ⟨false, false, false, false, true, false, false⟩

/-- The flags with the one of a letter on or off. -/
def Flags.set? (flags : Flags) (letter : Char) (on : Bool) : Option Flags :=
  match letter with
  | 'i' => some { flags with ignoreCase := on }
  | 'm' => some { flags with multiLine := on }
  | 's' => some { flags with dotMatchesNewline := on }
  | 'U' => some { flags with swapGreed := on }
  | 'u' => some { flags with unicode := on }
  | 'R' => some { flags with anyLineBreak := on }
  | 'x' => some { flags with verbose := on }
  | _ => none

/-- What was read, and how many constructs are nested in it. -/
structure Nested (α : Type) where
  value : α
  depth : Nat

namespace Nested

/-- A part without anything nested in it. -/
def flat {α : Type} (value : α) : Nested α := ⟨value, 0⟩

/-- How deep parts are nested that stand side by side: a single one makes no construct. -/
def depthOf : List Nat → Nat
  | [] => 0
  | [depth] => depth
  | depths => depths.foldl max 0 + 1

end Nested

/-- A place in a pattern that is being read: the text ahead, the flags, and the names of groups so
far. -/
structure Place where
  rest : List Char
  flags : Flags
  groupNames : List String

/-- Reading of a pattern, which can fail. -/
abbrev Scan := StateT Place Option

namespace Scan

def flags : Scan Flags := return (← get).flags

def rest : Scan (List Char) := return (← get).rest

def setRest (rest : List Char) : Scan Unit := modify fun place => { place with rest }

def setFlags (flags : Flags) : Scan Unit := modify fun place => { place with flags }

/-- The next character, if there is one. -/
def peek? : Scan (Option Char) := return (← rest).head?

/-- The next character, which must be there. -/
def peek : Scan Char := do
  match (← rest) with
  | c :: _ => return c
  | [] => failure

def skip : Scan Unit := do setRest ((← rest).drop 1)

/-- Takes the next character. -/
def next : Scan Char := do
  let c ← peek
  skip
  return c

/-- Passes a text if it is ahead. -/
def takeText (text : String) : Scan Bool := do
  let here ← rest
  if text.toList.isPrefixOf here then
    setRest (here.drop text.length)
    return true
  else return false

def isBlank (c : Char) : Bool := CharSet.space.contains c

/-- The text behind blanks and comments. -/
def dropBlank : Nat → List Char → List Char
  | 0, cs => cs
  | fuel + 1, cs =>
    match cs with
    | '#' :: rest => dropBlank fuel (rest.dropWhile (· != '\n'))
    | c :: rest => if isBlank c then dropBlank fuel rest else c :: rest
    | [] => []

/-- Passes blanks and comments if the flags allow them. -/
def skipBlank : Scan Unit := do
  if (← flags).verbose then
    let here ← rest
    setRest (dropBlank here.length here)

/-- Passes a character and the blanks behind it. -/
def pass : Scan Unit := do
  skip
  skipBlank

/-- Passes a character and looks at the next one. -/
def advance : Scan Char := do
  pass
  peek

/-- Passes a character that must be the given one. -/
def expect (c : Char) : Scan Unit := do
  if (← next) != c then failure

/-- Takes characters as long as they are wanted. -/
def takeWhile (isWanted : Char → Bool) : Nat → Scan (List Char)
  | 0 => return []
  | fuel + 1 => do
    match ← peek? with
    | some c =>
      if isWanted c then
        pass
        return c :: (← takeWhile isWanted fuel)
      else return []
    | none => return []

/-- What follows the character at the place. Where blanks are passed over, so is the sign of a
comment, but not the text of the comment. -/
def following? : Scan (Option Char) := do
  let behind := (← rest).drop 1
  if (← flags).verbose then
    match behind.dropWhile isBlank with
    | '#' :: comment => return comment.find? (!isBlank ·)
    | cs => return cs.head?
  else return behind.head?

end Scan

end ObjectQuery.Pattern
