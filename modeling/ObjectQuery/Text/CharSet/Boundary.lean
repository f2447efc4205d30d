import ObjectQuery.Text.CharSet.Named

/-!
Sets of characters by what they do to the boundaries between clusters, which are what a reader takes
for one character, between words and between sentences. Of each of the three kinds the sets have no
character in common: each is given by a larger set, less the sets in front of it.
-/

namespace ObjectQuery.CharSet

/-- The set of a name in a list, less the sets in front of it and those characters that are gone
before. -/
def part? (name : String) : CharSet → List (List String × CharSet) → Option CharSet
  | _, [] => .none
  | gone, (names, set) :: rest =>
    if names.contains name then some (difference set gone) else part? name (union gone set) rest

def carriageReturn : CharSet := single '\r'

def lineFeed : CharSet := single '\n'

/-- The joiner that makes one sign of two. -/
def joiner : CharSet := ofRanges "200D"

/-- The characters of a script. -/
def script (name : String) : CharSet := (script? name).getD none

/-- Characters that stay with the one before. -/
def trailing : CharSet := union graphemeExtend (ofCategories [.spacingMark])

/-- Signs that stand in front of a number and under its digits. -/
def numberSign : CharSet := difference (listed "prependedconcatenationmark") (ofRanges "70F")

/-- The digits of numbers and what belongs to them. -/
def numeric : CharSet := unionList [digit, ofRanges "66B", numberSign]

/-! ### Clusters -/

/-- Marks of some scripts of Southeast Asia that stand behind a letter as letters do. -/
def separateMark : CharSet :=
  ofRanges "102B-102C 1038 1062-1064 1067-106D 1083 1087-108C 108F 109A-109C 1A61 1A63-1A64 AA7B
    AA7D 11720-11721"

def clusterParts : List (List String × CharSet) := [
  (["cr"], carriageReturn),
  (["lf"], lineFeed),
  (["zwj"], joiner),
  (["ex", "extend"], union graphemeExtend (listed "emojimodifier")),
  (["ri", "regionalindicator"], listed "regionalindicator"),
  (["pp", "prepend"],
    union (listed "prependedconcatenationmark")
      (ofRanges "D4E 111C2-111C3 113D1 1193F 11941 11A3A 11A84-11A89 11D46 11F02")),
  (["cn", "control"],
    unionList [ofCategories [.control, .format, .lineSeparator, .paragraphSeparator],
      difference (listed "defaultignorablecodepoint") assigned]),
  (["l"], ofRanges "1100-115F A960-A97C"),
  (["v"], ofRanges "1160-11A7 D7B0-D7C6 16D63 16D67-16D6A"),
  (["t"], ofRanges "11A8-11FF D7CB-D7FB"),
  (["lv"], ofRanges "AC00-D788/1C"),
  (["lvt"], ofRanges "AC00-D7A3"),
  (["sm", "spacingmark"],
    difference (union (ofCategories [.spacingMark]) (ofRanges "E33 EB3")) separateMark)]

def clusterPart? (name : String) : Option CharSet := part? name none clusterParts

/-! ### Words -/

/-- Letters of scripts that write no blanks between words. -/
def unspaced : CharSet :=
  unionList <| listed "ideographic" ::
    ["hira", "thai", "laoo", "mymr", "khmr", "tale", "talu", "lana", "tavt", "ahom"].map script

def wordParts : List (List String × CharSet) := [
  (["cr"], carriageReturn),
  (["lf"], lineFeed),
  (["nl", "newline"], ofRanges "B-C 85 2028-2029"),
  (["zwj"], joiner),
  (["extend"], union trailing (listed "emojimodifier")),
  (["ri", "regionalindicator"], listed "regionalindicator"),
  (["fo", "format"],
    difference (ofCategories [.format])
      (union (listed "prependedconcatenationmark") (ofRanges "200B"))),
  (["ka", "katakana"], union (script "kana") (ofRanges "3031-3035 309B-309C 30A0 30FC FF70")),
  (["hl", "hebrewletter"], inter (script "hebr") (ofCategories [.otherLetter])),
  (["le", "aletter"],
    difference
      (union alphabetic
        (ofRanges "2C2-2C5 2D2-2D7 2DE-2DF 2E5-2EB 2ED 2EF-2FF 55A-55C 55E 58A 5F3 70F A708-A716
          A720-A721 A789-A78A AB5B"))
      unspaced),
  (["sq", "singlequote"], single '\''),
  (["dq", "doublequote"], ofRanges "22"),
  (["mb", "midnumlet"], ofRanges "2E 2018-2019 2024 FE52 FF07 FF0E"),
  (["ml", "midletter"], ofRanges "3A B7 387 55F 5F4 2027 FE13 FE55 FF1A"),
  (["mn", "midnum"],
    ofRanges "2C 3B 37E 589 60C-60D 66C 7F8 2044 FE10 FE14 FE50 FE54 FF0C FF1B"),
  (["nu", "numeric"], numeric),
  (["ex", "extendnumlet"], union (ofCategories [.connectorPunctuation]) (ofRanges "202F")),
  (["wsegspace"], difference (ofCategories [.spaceSeparator]) (ofRanges "A0 2007 202F"))]

def wordPart? (name : String) : Option CharSet := part? name none wordParts

/-! ### Sentences -/

def sentenceParts : List (List String × CharSet) := [
  (["cr"], carriageReturn),
  (["lf"], lineFeed),
  (["ex", "extend"], union trailing joinControl),
  (["se", "sep"], ofRanges "85 2028-2029"),
  (["fo", "format"], difference (ofCategories [.format]) (listed "prependedconcatenationmark")),
  (["sp"], space),
  (["lo", "lower"], difference lowercase (ofRanges "10D0-10FA 10FD-10FF")),
  (["up", "upper"],
    difference (union uppercase (ofCategories [.titlecaseLetter]))
      (ofRanges "1C90-1CBA 1CBD-1CBF")),
  (["le", "oletter"], union alphabetic (ofRanges "A0 5F3 70F")),
  (["nu", "numeric"], union numeric (ofRanges "66C")),
  (["at", "aterm"], ofRanges "2E 2024 FE52 FF0E"),
  (["st", "sterm"], listed "sentenceterminal"),
  (["sc", "scontinue"],
    ofRanges "2C-2D 3A-3B 37E 55D 60C-60D 7F8 1802 1808 2013-2014 3001 FE10-FE11 FE13-FE14 FE31-FE32
      FE50-FE51 FE54-FE55 FE58 FE63 FF0C-FF0D FF1A-FF1B FF64"),
  (["cl", "close"],
    union (ofCategories [.openPunctuation, .closePunctuation, .initialPunctuation,
      .finalPunctuation]) (ofRanges "22 27 275B-2760 2E00-2E0D 1F676-1F678"))]

def sentencePart? (name : String) : Option CharSet := part? name none sentenceParts

end ObjectQuery.CharSet
