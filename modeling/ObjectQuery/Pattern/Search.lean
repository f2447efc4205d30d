import ObjectQuery.Pattern

/-!
Search for a match in time linear in the text for each construct of the pattern. The positions that
a match may have reached are the bits of a number; a pattern takes the positions where matches begin
to those where they end.
-/

namespace ObjectQuery.Pattern

/-- A pattern laid over a text: its leaves say at which positions they hold. -/
inductive Located where
  | empty
  /-- One character further from the marked positions. -/
  | step (marks : Nat)
  /-- No further, and only from the marked positions. -/
  | hold (marks : Nat)
  | seq (p q : Located)
  | alt (p q : Located)
  | times (p : Located) (least : Nat) (most : Option Nat)

/-- The number with these bits, the least significant first. -/
def ofBits (bits : List Bool) : Nat := bits.foldr (fun bit n => 2 * n + bit.toNat) 0

/-- The characters before and behind each position. -/
def surroundings : Option Char → List Char → List (Option Char × Option Char)
  | before, [] => [(before, none)]
  | before, c :: rest => (before, some c) :: surroundings (some c) rest

/-- A pattern with the positions at which its parts can stand. -/
def locate (text : List Char) : Pattern → Located
  | .empty => .empty
  | .one set => .step (ofBits (text.map set.contains))
  | .anchor a => .hold (ofBits ((surroundings none text).map fun (b, c) => a.holds b c))
  | .seq p q => .seq (locate text p) (locate text q)
  | .alt p q => .alt (locate text p) (locate text q)
  | .times p least most => .times (locate text p) least most
  | .group _ p => locate text p

/-- Applies a step a number of times; once nothing is reached, nothing ever is. -/
def iterate (step : Nat → Nat) : Nat → Nat → Nat
  | 0, reached => reached
  | count + 1, reached => if reached = 0 then 0 else iterate step count (step reached)

/-- All positions reached from `newest` in at most a number of steps, with those in `reached`. Only
positions not reached before are followed up. -/
def spread (step : Nat → Nat) : Nat → Nat → Nat → Nat
  | 0, reached, _ => reached
  | count + 1, reached, newest =>
    let found := step newest
    let new := found ^^^ (found &&& reached)
    if new = 0 then reached else spread step count (reached ||| new) new

/-- The positions where matches end that begin at the given ones; `length` is that of the text. -/
def Located.advance (length : Nat) : Located → Nat → Nat
  | .empty, reached => reached
  | .step marks, reached => (reached &&& marks) <<< 1
  | .hold marks, reached => reached &&& marks
  | .seq p q, reached => advance length q (advance length p reached)
  | .alt p q, reached => advance length p reached ||| advance length q reached
  | .times p least most, reached =>
    let start := iterate (advance length p) least reached
    let further := match most with
      | none => length + 1
      | some most => min (most - least) (length + 1)
    if most.any (· < least) then 0 else spread (advance length p) further start start

/-- Whether a pattern is found anywhere in a text. -/
def isMatch (p : Pattern) (text : String) : Bool :=
  let cs := text.toList
  (locate cs p).advance cs.length (Nat.pow 2 (cs.length + 1) - 1) != 0

end ObjectQuery.Pattern
