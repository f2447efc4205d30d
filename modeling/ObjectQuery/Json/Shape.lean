import ObjectQuery.Json
import ObjectQuery.Bindings

/-!
What JSON trees of typed data look like: variants, told apart by a tag, and records, whose fields
are members of an object or, in order, items of a list.
-/

namespace ObjectQuery.Json

/-- A field of a record. One that is `optionalInLists` may be left off at the end of a list. -/
structure Field where
  name : String
  optionalInLists : Bool

/-- The tag of a variant, and its body if it has one. -/
def variant? : Json → Option (String × Option Json)
  | .string tag => some (tag, none)
  | .object [(tag, body)] => some (tag, some body)
  | _ => none

/-- The fields of a record in the order of `shape`, `none` for each that is left out. Members of
other names are passed over, but a field must not be given twice. -/
def record? (shape : List Field) : Json → Option (List (Option Json))
  | .object members =>
    if shape.any fun field => 1 < (members.filter (·.1 == field.name)).length then none
    else some (shape.map fun field => Bindings.get? members field.name)
  | .array items =>
    let missing := shape.drop items.length
    if items.length ≤ shape.length && missing.all (·.optionalInLists) then
      some (items.map some ++ missing.map fun _ => none)
    else none
  | _ => none

def items? : Json → Option (List Json)
  | .array items => some items
  | _ => none

def members? : Json → Option (List (String × Json))
  | .object members => some members
  | _ => none

def boolean? : Json → Option Bool
  | .boolean b => some b
  | _ => none

/-- An integer between two bounds. -/
def integer? (least greatest : Int) : Json → Option Int
  | .number (.integer n) => if least ≤ n && n ≤ greatest then some n else none
  | _ => none

/-- An integer of so many bits. -/
def signed? (bits : Nat) (json : Json) : Option Int :=
  let bound : Int := Nat.pow 2 (bits - 1)
  json.integer? (-bound) (bound - 1)

/-- A natural number below a bound. -/
def natural? (bound : Nat) : Json → Option Nat
  | .number (.integer (.ofNat n)) => if n < bound then some n else none
  | _ => none

/-- A natural number of 64 bits. -/
def count? (json : Json) : Option Nat := json.natural? UInt64.size

/-- A number in a binary format. -/
def binary? (f : BinaryFormat) : Json → Option (Binary f)
  | .number (.integer n) => some (.ofInt n)
  | .number (.double x) => some x.convert
  | .number (.single x) => some x.convert
  | _ => none

/-- A field that may be left out or null. -/
def present? : Option Json → Option Json
  | some .null => none
  | field => field

/-- A field that may be left out or null, read by `read` if it is there. -/
def optional {α : Type} {m : Type → Type} [Monad m] (read : Json → m α) (field : Option Json) :
    m (Option α) :=
  match present? field with
  | some json => some <$> read json
  | none => return none

/-- A field that may be left out but not be null, with its value when it is left out. -/
def withDefault {α : Type} {m : Type → Type} [Monad m] (read : Json → m α) (otherwise : α)
    (field : Option Json) : m α :=
  match field with
  | some json => read json
  | none => return otherwise

mutual

/-- How deep arrays and objects are nested. -/
def depth : Json → Nat
  | .array items => itemsDepth items + 1
  | .object members => membersDepth members + 1
  | _ => 0

/-- The depth of the deepest item. -/
def itemsDepth : List Json → Nat
  | [] => 0
  | item :: rest => max (depth item) (itemsDepth rest)

/-- The depth of the deepest member. -/
def membersDepth : List (String × Json) → Nat
  | [] => 0
  | (_, value) :: rest => max (depth value) (membersDepth rest)

end

end ObjectQuery.Json
