import ObjectQuery.Value
import ObjectQuery.Number.Decimal.Text

/-!
The display text of values.
-/

namespace ObjectQuery.Value

/-- Items between braces. -/
def braced (items : List String) : String := "\x7b" ++ String.intercalate ", " items ++ "\x7d"

mutual

/-- Displays a value: texts stand bare, containers in brackets, and an object shows its identity if
it has one and else its fields. -/
def toText : Value → String
  | null => "null"
  | boolean b => if b then "true" else "false"
  | char c => c.toString
  | byte n => toString n.toInt
  | short n => toString n.toInt
  | int n => toString n.toInt
  | long n => toString n.toInt
  | bigInteger n => toString n
  | float x => x.toText
  | double x => x.toText
  | decimal d => d.toText
  | string s => s
  | array items => "[" ++ String.intercalate ", " (itemTexts items) ++ "]"
  | list items => "[" ++ String.intercalate ", " (itemTexts items) ++ "]"
  | set items => "[" ++ String.intercalate ", " (itemTexts items) ++ "]"
  | map entries => braced (entryTexts entries)
  | object _ typeName _ (some identity) => typeName ++ "[" ++ toText identity ++ "]"
  | object _ typeName fields none => typeName ++ braced (fieldTexts fields)
  | type name => "class " ++ name
termination_by structural value => value

def itemTexts : List Value → List String
  | [] => []
  | item :: rest => toText item :: itemTexts rest
termination_by structural items => items

def entryTexts : List (Value × Value) → List String
  | [] => []
  | (key, value) :: rest => (toText key ++ "=" ++ toText value) :: entryTexts rest
termination_by structural entries => entries

def fieldTexts : List (String × Value) → List String
  | [] => []
  | (name, value) :: rest => (name ++ "=" ++ toText value) :: fieldTexts rest
termination_by structural fields => fields

end

end ObjectQuery.Value
