import ObjectQuery.Text.CharSet

/-!
Regular expressions and what they match, as a relation between positions of a text.
-/

namespace ObjectQuery

/-- Places in a text that a pattern can ask for. -/
inductive Anchor where
  | textStart
  | textEnd
  | lineStart
  | lineEnd
  /-- A line start or end where a carriage return ends a line too. -/
  | lineStartAnyBreak
  | lineEndAnyBreak
  /-- Boundaries of words made of the characters of a set. -/
  | wordBoundary (word : CharSet)
  | notWordBoundary (word : CharSet)
  | wordStart (word : CharSet)
  | wordEnd (word : CharSet)
  | wordStartHalf (word : CharSet)
  | wordEndHalf (word : CharSet)

namespace Anchor

/-- Whether there is a character and the set holds it. -/
def inside (set : CharSet) (c : Option Char) : Bool := (c.map set.contains).getD false

/-- Whether an anchor holds between two characters, of which one is missing at an end of the text.
-/
def holds (anchor : Anchor) (before after : Option Char) : Bool :=
  match anchor with
  | textStart => before.isNone
  | textEnd => after.isNone
  | lineStart => before.isNone || before == some '\n'
  | lineEnd => after.isNone || after == some '\n'
  | lineStartAnyBreak =>
    before.isNone || before == some '\n' || (before == some '\r' && after != some '\n')
  | lineEndAnyBreak =>
    after.isNone || after == some '\r' || (after == some '\n' && before != some '\r')
  | wordBoundary word => inside word before != inside word after
  | notWordBoundary word => inside word before == inside word after
  | wordStart word => !inside word before && inside word after
  | wordEnd word => inside word before && !inside word after
  | wordStartHalf word => !inside word before
  | wordEndHalf word => !inside word after

end Anchor

/-- Patterns of texts. -/
inductive Pattern where
  | empty
  /-- One character of a set. -/
  | one (set : CharSet)
  | anchor (a : Anchor)
  | seq (p q : Pattern)
  | alt (p q : Pattern)
  /-- At least `least` and at most `most` matches one after the other. -/
  | times (p : Pattern) (least : Nat) (most : Option Nat)
  /-- A part in round brackets, which may be told to keep what it matches. -/
  | group (captures : Bool) (p : Pattern)

namespace Pattern

/-- The character before a position. -/
def charBefore (text : List Char) (i : Nat) : Option Char := if i = 0 then none else text[i - 1]?

/-- A pattern matches the text from one position up to another. -/
inductive Matches (text : List Char) : Pattern → Nat → Nat → Prop where
  | empty (i : Nat) : Matches text .empty i i
  | one (set : CharSet) (i : Nat) (c : Char) (at_i : text[i]? = some c) (mem : set.contains c) :
      Matches text (.one set) i (i + 1)
  | anchor (a : Anchor) (i : Nat) (in_text : i ≤ text.length)
      (holds : a.holds (charBefore text i) text[i]?) : Matches text (.anchor a) i i
  | seq (p q : Pattern) (i j k : Nat) (left : Matches text p i j) (right : Matches text q j k) :
      Matches text (.seq p q) i k
  | alt_left (p q : Pattern) (i j : Nat) (h : Matches text p i j) : Matches text (.alt p q) i j
  | alt_right (p q : Pattern) (i j : Nat) (h : Matches text q i j) : Matches text (.alt p q) i j
  | group (captures : Bool) (p : Pattern) (i j : Nat) (h : Matches text p i j) :
      Matches text (.group captures p) i j
  | times_none (p : Pattern) (most : Option Nat) (i : Nat) : Matches text (.times p 0 most) i i
  | times_step (p : Pattern) (least : Nat) (i j k : Nat) (most : Option Nat)
      (h : Matches text p i j)
      (room : most ≠ some 0) (rest : Matches text (.times p (least - 1) (most.map (· - 1))) j k) :
      Matches text (.times p least most) i k

end Pattern

end ObjectQuery
