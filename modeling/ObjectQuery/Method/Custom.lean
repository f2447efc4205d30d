import ObjectQuery.Method.Call

/-!
Methods that a program adds to the built-in ones.
-/

namespace ObjectQuery

/-- A method that a program registers. -/
structure CustomMethod where
  /-- What the method does in a call on a receiver, which is null in the call of a function. It may
  be any step of the machine, and can have evaluated what the call holds. -/
  evaluate : Call → Value → Eval Operand
  nullDefault : Value

namespace CustomMethod

/-- A method that always gives the same answer. -/
def constant (result nullDefault : Value) : CustomMethod :=
  ⟨fun _ _ => return .value result, nullDefault⟩

/-- A method that answers the list of its receiver and its arguments, as far as all of them can be
resolved. -/
def tuple (nullDefault : Value) : CustomMethod where
  evaluate call receiver := do
    match ← Argument.values call.args with
    | some values => return .value (.list (receiver :: values))
    | none => return .unresolved
  nullDefault := nullDefault

end CustomMethod

end ObjectQuery
