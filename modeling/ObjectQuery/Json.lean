import ObjectQuery.Number.Binary

/-!
JSON trees. Members keep the order and the repetitions of the text; `canonical` sorts them and lets
the last of a repeated name win. A part of a text may be well formed and still hold no value that
can be used; such a part is `unreadable`, which matters only to a reader that looks at it.
-/

namespace ObjectQuery

/-- Numbers as JSON texts carry them. A `single` is only ever written, never read. -/
inductive JsonNumber where
  | integer (n : Int)
  | double (x : Double)
  | single (x : Single)

/-- JSON values. -/
inductive Json where
  | null
  | boolean (b : Bool)
  | number (n : JsonNumber)
  | string (s : String)
  | array (items : List Json)
  | object (members : List (String × Json))
  /-- A number beyond every double, a text with half a surrogate pair, or nesting too deep. -/
  | unreadable

instance : Inhabited Json := ⟨.null⟩

namespace Json

/-- An integer as a number. -/
def ofInt (n : Int) : Json := .number (.integer n)

/-- A double as a number; one that is not finite becomes null. -/
def ofDouble (x : Double) : Json := if x.isFinite then .number (.double x) else .null

/-- A single as a number; one that is not finite becomes null. -/
def ofSingle (x : Single) : Json := if x.isFinite then .number (.single x) else .null

/-- Puts a member in its place by name, over an earlier one of that name. -/
def insertMember {α : Type} (name : String) (value : α) : List (String × α) → List (String × α)
  | [] => [(name, value)]
  | (other, kept) :: rest =>
    if name < other then (name, value) :: (other, kept) :: rest
    else if name = other then (name, value) :: rest
    else (other, kept) :: insertMember name value rest

/-- Members sorted by name, the last of each name kept. -/
def sortMembers {α : Type} (members : List (String × α)) : List (String × α) :=
  members.foldl (fun sorted member => insertMember member.1 member.2 sorted) []

mutual

/-- The tree with the members of every object sorted and told apart, singles widened. -/
def canonical : Json → Json
  | .number (.single x) => .number (.double x.convert)
  | .array items => .array (canonicalItems items)
  | .object members => .object (sortMembers (canonicalMembers members))
  | json => json

def canonicalItems : List Json → List Json
  | [] => []
  | item :: rest => canonical item :: canonicalItems rest

def canonicalMembers : List (String × Json) → List (String × Json)
  | [] => []
  | (name, value) :: rest => (name, canonical value) :: canonicalMembers rest

end

mutual

/-- Whether no part is unreadable. -/
def readable : Json → Bool
  | .unreadable => false
  | .array items => readableItems items
  | .object members => readableMembers members
  | _ => true

def readableItems : List Json → Bool
  | [] => true
  | item :: rest => readable item && readableItems rest

def readableMembers : List (String × Json) → Bool
  | [] => true
  | (_, value) :: rest => readable value && readableMembers rest

end

/-- The member of an object by its name, the last one if it is repeated. -/
def member? (json : Json) (name : String) : Option Json :=
  match json with
  | .object members => (members.reverse.find? (·.1 == name)).map (·.2)
  | _ => none

def string? : Json → Option String
  | .string s => some s
  | _ => none

end Json

end ObjectQuery
