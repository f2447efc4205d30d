import ObjectQuery.Text.CaseMapping

/-!
Sets of characters, as descriptions that can be combined and asked for membership.
-/

namespace ObjectQuery

/-- Sets of characters. -/
inductive CharSet where
  /-- The characters whose code points lie in one of the ranges. -/
  | codes (ranges : List CodeRange)
  | complement (s : CharSet)
  | union (s t : CharSet)
  | inter (s t : CharSet)
  /-- The letters of a set and those that differ from one of them only in case. -/
  | foldCase (s : CharSet)

namespace CharSet

def contains : CharSet → Char → Bool
  | codes ranges, c => ranges.any (·.contains c.toNat)
  | complement s, c => !s.contains c
  | union s t, c => s.contains c || t.contains c
  | inter s t, c => s.contains c && t.contains c
  | foldCase s, c => (CaseMapping.caseVariants c).any s.contains

def none : CharSet := codes []

def any : CharSet := complement none

/-- The characters from one to another. -/
def range (first last : Char) : CharSet := codes [⟨first.toNat, last.toNat, 1⟩]

def single (c : Char) : CharSet := range c c

/-- The characters of ranges that are written as a text. -/
def ofRanges (text : String) : CharSet := codes (CodeRange.listOfText text)

/-- The characters of categories. -/
def ofCategories (categories : List GeneralCategory) : CharSet :=
  codes (categories.flatMap GeneralCategory.ranges)

/-- The union of several sets. -/
def unionList : List CharSet → CharSet
  | [] => none
  | [s] => s
  | s :: rest => union s (unionList rest)

/-- The characters of the first set that are not in the second. -/
def difference (s t : CharSet) : CharSet := inter s (complement t)

def symmetricDifference (s t : CharSet) : CharSet := union (difference s t) (difference t s)

end CharSet

end ObjectQuery
