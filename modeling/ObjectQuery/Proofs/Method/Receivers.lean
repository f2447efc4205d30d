import ObjectQuery.Proofs.Catalog.Builtin
import ObjectQuery.Proofs.Evaluation.Operands
import ObjectQuery.Proofs.Method.Dispatch

/-!
The receivers that built-in methods are dispatched to. Main statement: as long as no user type has
the name of a built-in one, the method found for a value that is no object is one for values of its
kind, so the check of the receiver that methods begin with lets it through. It ties together the
names of the types of values, the supertypes of these, the types that methods are registered for,
and the kinds that each method is for.
-/

namespace ObjectQuery

/-! ### Checks of the receiver -/

namespace Method

/-- An error about a receiver that has nothing of what a method is for. -/
def refusalUnless {α : Type} (found : Option α) (error : EvalError) : Option EvalError :=
  if found.isSome then none else some error

theorem refusalUnless_some {α : Type} (a : α) (error : EvalError) :
    refusalUnless (some a) error = none := rfl

theorem refusalUnless_eq_some_iff {α : Type} {found : Option α} {error other : EvalError} :
    refusalUnless found error = some other ↔ found = none ∧ error = other := by
  cases found <;> simp [refusalUnless]

/-- The error of a built-in method about a receiver of a kind that it is not for. -/
def refusal? : Method → Value → Option EvalError
  | text method, receiver =>
    refusalUnless receiver.string? (.invalidOperand method.name "String" receiver.describeType)
  | collection method, receiver =>
    refusalUnless receiver.elements?
      (.invalidOperand method.name "Collection" receiver.describeType)
  | map _, .map _ => none
  | map method, receiver => some (.invalidOperand method.name "Map" receiver.describeType)
  | number method, receiver => refusalUnless receiver.toDouble? (notNumeric method.name receiver)
  | _, _ => none

/-- What a method of some receivers answers once it has let one through: texts are for strings,
collections for what has elements, and numbers for what has a double. -/
inductive Answers (call : Call) : Method → Value → Eval Operand → Prop where
  | text (method : TextMethod) (s : String) :
    Answers call (text method) (.string s) (do
      call.checkCount method.arity
      match ← Argument.values call.args with
      | some args => method.apply call s args
      | none => return .unresolved)
  | collection (method : CollectionMethod) {receiver : Value} {elements : List Value}
    (helements : receiver.elements? = some elements) :
    Answers call (collection method) receiver (method.apply call elements)
  | map (method : MapMethod) (entries : List (Value × Value)) :
    Answers call (map method) (.map entries) (method.apply call entries)
  | number (method : NumberMethod) {receiver : Value} {x : Double}
    (hdouble : receiver.toDouble? = some x) :
    Answers call (number method) receiver (do
      call.checkCount NumberMethod.arity
      return .value (method.convert receiver x))
  | identity (receiver : Value) : Answers call identity receiver (evaluateIdentity call receiver)

variable {call : Call} {method : Method} {receiver : Value} {answer : Eval Operand}

theorem Answers.evaluate_eq (h : method.Answers call receiver answer) :
    method.evaluate call receiver = answer := by
  cases h with
  | text method s => rfl
  | collection method helements => rw [evaluate, CollectionMethod.evaluate, helements]
  | map method entries => rfl
  | number method hdouble => rw [evaluate, NumberMethod.evaluate, hdouble]
  | identity receiver => rfl

theorem Answers.refusal?_eq_none (h : method.Answers call receiver answer) :
    method.refusal? receiver = none := by
  cases h with
  | text method s => rfl
  | collection method helements => rw [refusal?, helements, refusalUnless_some]
  | map method entries => rfl
  | number method hdouble => rw [refusal?, hdouble, refusalUnless_some]
  | identity receiver => rfl

theorem checkCount_then_fail {error : EvalError} (call : Call) (arity : Arity) :
    (do call.checkCount arity; Eval.fail error : Eval Operand) = Eval.fail error ∨
      arity.admits call.args.length = false ∧
        (do call.checkCount arity; Eval.fail error : Eval Operand) =
          Eval.fail (call.countError arity) := by
  rw [Call.checkCount]
  split
  · exact .inl rfl
  · rename_i hcount
    exact .inr ⟨Bool.not_eq_true _ ▸ hcount, rfl⟩

theorem evaluate_of_refusal? {error : EvalError} (h : method.refusal? receiver = some error)
    (call : Call) : method.evaluate call receiver = Eval.fail error ∨
      ∃ arity, arity.admits call.args.length = false ∧
        method.evaluate call receiver = Eval.fail (call.countError arity) := by
  cases method with
  | text method =>
    obtain ⟨hstring, rfl⟩ := refusalUnless_eq_some_iff.mp h
    rw [evaluate, TextMethod.evaluate, hstring]
    exact (checkCount_then_fail call method.arity).imp_right fun h => ⟨_, h⟩
  | collection method =>
    obtain ⟨helements, rfl⟩ := refusalUnless_eq_some_iff.mp h
    rw [evaluate, CollectionMethod.evaluate, helements]
    exact .inl rfl
  | map method =>
    cases receiver <;> first | cases h; exact .inl rfl | cases h
  | number method =>
    obtain ⟨hdouble, rfl⟩ := refusalUnless_eq_some_iff.mp h
    rw [evaluate, NumberMethod.evaluate, hdouble]
    exact (checkCount_then_fail call NumberMethod.arity).imp_right fun h => ⟨_, h⟩
  | _ => cases h

/-- The types of the values that a method of some receivers is for. -/
def takes : Method → DataType → Bool
  | text _, type => type == .string
  | collection _, type => type == .array || type == .list || type == .set
  | map _, type => type == .map
  | number _, type => type.supertypes.contains "Number"
  | identity, _ => true
  | _, _ => false

/-- A method that takes a type answers for every value of it. -/
theorem exists_answers {type : DataType} (htype : receiver.dataType? = some type)
    (htakes : method.takes type) (call : Call) : ∃ answer, method.Answers call receiver answer := by
  cases method with
  | text method =>
    obtain rfl := beq_iff_eq.mp htakes
    cases receiver <;> first | exact ⟨_, .text method _⟩ | cases htype
  | collection method =>
    cases receiver <;> first | exact ⟨_, .collection method rfl⟩ | cases htype
    all_goals cases htakes
  | map method =>
    obtain rfl := beq_iff_eq.mp htakes
    cases receiver <;> first | exact ⟨_, .map method _⟩ | cases htype
  | number method =>
    cases receiver <;> first | exact ⟨_, .number method rfl⟩ | cases htype
    all_goals cases htakes
  | identity => exact ⟨_, .identity receiver⟩
  | _ => cases htakes

end Method

/-! ### What is registered -/

namespace Registry

open Registration

variable {type : DataType} {name : String} {method : Method}

/-- The built-in methods and functions in the order in which they are registered. -/
def builtinRegistrations : List Registration :=
  builtinEntries.map fun (receiverType, name, method) => ⟨receiverType, name, method⟩

theorem builtin_eq : builtin = ofRegistrations builtinRegistrations := by
  rw [builtin, ofRegistrations, builtinRegistrations, List.foldl_map]
  rfl

/-- The table of supertypes, the types of registration and the kinds that methods are for agree. -/
theorem takes_of_registered : ∀ type ∈ DataType.all, ∀ ancestor ∈ Catalog.empty.ancestry type.name,
    ∀ r ∈ builtinRegistrations, r.receiverType = some ancestor → r.method.takes type := by
  decide +kernel

theorem takes_of_method? (h : builtin.method? .empty type.name name = some method) :
    method.takes type := by
  rw [builtin_eq, method?_ofRegistrations] at h
  obtain ⟨ancestor, hancestor, hlast⟩ := List.exists_of_findSome?_eq_some h
  obtain ⟨before, r, after, hsplit, hfor, rfl, -⟩ := last?_eq_some_iff.mp hlast
  have hmem : r ∈ builtinRegistrations := by rw [hsplit]; simp
  exact takes_of_registered type type.mem_all ancestor hancestor r hmem hfor.1

end Registry

/-! ### Calls -/

namespace Environment

variable {env : Environment} {receiver : Value}

theorem exists_dataType? (hnull : receiver ≠ .null)
    (hobject : ∀ id typeName fields identity, receiver ≠ .object id typeName fields identity) :
    ∃ type, receiver.dataType? = some type := by
  cases receiver with
  | null => exact absurd rfl hnull
  | object id typeName fields identity => exact absurd rfl (hobject id typeName fields identity)
  | _ => exact ⟨_, rfl⟩

/-- In a catalog in which no user type has the name of a built-in one, a call of any name on a value
that is no object and not null either finds no built-in method, and comes to nothing with a warning,
or it finds one that does not refuse the value, and comes to what that method answers behind its
check. What a method refuses a value with is what calls of it on the value fail on. -/
theorem builtin_receiver_accepted (hregistry : env.registry = .builtin)
    (hcatalog : env.catalog.LeavesBuiltin) (hnull : receiver ≠ .null)
    (hobject : ∀ id typeName fields identity, receiver ≠ .object id typeName fields identity)
    (call : Call) :
    (∃ type : DataType, receiver.dataType? = some type ∧
      match env.methodFor? (some type.name) call.name with
      | some method => method.refusal? receiver = none ∧
        ∃ answer, method.Answers call receiver answer ∧
          env.callMethod receiver call = answer
      | none => env.callMethod receiver call =
          Eval.unresolved (.unsupportedMethod (some type.name) call.name)) ∧
    ∀ (method : Method) (error : EvalError), method.refusal? receiver = some error →
      method.evaluate call receiver = Eval.fail error ∨
        ∃ arity, arity.admits call.args.length = false ∧
          method.evaluate call receiver = Eval.fail (call.countError arity) := by
  obtain ⟨type, htype⟩ := exists_dataType? hnull hobject
  have hdispatch : env.receiverType? receiver call.declared = some type.name := by
    cases receiver <;> cases htype <;> rfl
  have hisNull : receiver.isNull = false := by
    cases receiver <;> first | rfl | cases htype
  refine ⟨⟨type, htype, ?_⟩, fun method error hrefusal => method.evaluate_of_refusal? hrefusal call⟩
  simp only [callMethod, hdispatch, hisNull]
  cases hmethod : env.methodFor? (some type.name) call.name with
  | none => rfl
  | some method =>
    rw [methodFor?, hregistry, Registry.method?_of_leavesBuiltin _ hcatalog
      type.isSome_builtinSupertypes?] at hmethod
    obtain ⟨answer, hanswers⟩ :=
      method.exists_answers htype (Registry.takes_of_method? hmethod) call
    exact ⟨hanswers.refusal?_eq_none, answer, hanswers, hanswers.evaluate_eq⟩

/-- A user type has the simple name of a built-in one and is below another, and an alias has the
name of a third. -/
def lookalikes : Catalog :=
  (Catalog.empty.register ⟨"org.acme.List", some "String", [], none, []⟩).addImport "Collection"
    "org.acme.List"

/-- A list still has the methods of collections, in any letter case. -/
theorem builtin_receiver_accepted_lookalikes :
    let env : Environment := ⟨lookalikes, .builtin, .detached⟩
    let receiver : Value := .list [.int 1, .string "a"]
    let call : Call := ⟨none, "SIZE", [], none⟩
    env.catalog.LeavesBuiltin ∧ receiver ≠ .null ∧
      (∀ id typeName fields identity, receiver ≠ .object id typeName fields identity) ∧
      env.methodFor? (some DataType.list.name) call.name = some (.collection .size) ∧
      env.callMethod receiver call = CollectionMethod.size.apply call [.int 1, .string "a"] := by
  intro env receiver call
  have hcatalog : env.catalog.LeavesBuiltin :=
    (Catalog.leavesBuiltin_empty.register (by rfl)).addImport _ _
  have hnull : receiver ≠ .null := nofun
  have hobject : ∀ id typeName fields identity, receiver ≠ .object id typeName fields identity :=
    nofun
  have htypes : Catalog.empty.ancestry DataType.list.name =
      ["List", "Collection", "Iterable", rootType] := by decide +kernel
  have hkey : Registry.key call.name = "size" := by decide +kernel
  have hmethod : env.methodFor? (some DataType.list.name) call.name = some (.collection .size) := by
    rw [methodFor?, Registry.method?_of_leavesBuiltin _ hcatalog
      DataType.list.isSome_builtinSupertypes?, Registry.method?, htypes]
    simp only [Registry.ownMethod?, hkey]
    rfl
  obtain ⟨⟨type, htype, hcall⟩, -⟩ := builtin_receiver_accepted rfl hcatalog hnull hobject call
  obtain rfl : DataType.list = type := Option.some.inj htype
  rw [hmethod] at hcall
  obtain ⟨-, answer, hanswers, hcall⟩ := hcall
  refine ⟨hcatalog, hnull, hobject, hmethod, ?_⟩
  rw [hcall]
  cases hanswers with
  | collection method helements =>
    obtain rfl := Option.some.inj helements
    rfl

end Environment

end ObjectQuery
