import ObjectQuery.Proofs.Catalog.Builtin
import ObjectQuery.Proofs.Evaluation.Conversion
import ObjectQuery.Proofs.Method.Entry
import ObjectQuery.Proofs.Method.Receivers
import ObjectQuery.Proofs.Value.Refinement

/-!
Tests of membership, and the variables that range over members. Main statement: a variable without a
value is offered the members that the test compares with, and once it has one of them the test
holds, if the member is strictly equal to itself. Not-a-number is not, nor is a list or a set that
holds it.
-/

namespace ObjectQuery

namespace MapMethod

theorem isSome_lookup? (entries : List (Value × Value)) (key : Value) :
    (lookup? entries key).isSome =
      (entries.map (·.1)).any fun member => member.looseEq key := by
  rw [Bool.eq_iff_iff, lookup?_isSome_iff]
  simp

theorem containsValueOf_eq (entries : List (Value × Value)) (value : Value) :
    containsValueOf entries value =
      (entries.map (·.2)).any fun member => member.looseEq value := by
  rw [Bool.eq_iff_iff, containsValueOf_iff]
  simp

end MapMethod

namespace Method

/-- The members that a test of membership compares its argument with. -/
def members? : Method → Value → Option (List Value)
  | collection .contains, receiver => receiver.elements?
  | map .containsKey, .map entries => some (entries.map (·.1))
  | map .containsValue, .map entries => some (entries.map (·.2))
  | _, _ => none

variable {method : Method} {receiver : Value} {members : List Value}

theorem evaluate_of_members? (h : method.members? receiver = some members)
    (source : Option Argument) (name : String) (argument : Argument) (declared : Option String) :
    method.evaluate ⟨source, name, [argument], declared⟩ receiver = (do
      match ← argument.member members with
      | .value value => return .ofBool (members.any fun member => member.looseEq value)
      | .unresolved => return .ofBool false) := by
  cases method with
  | collection method =>
    cases method <;> first | cases h | skip
    rw [evaluate, CollectionMethod.evaluate, show receiver.elements? = some members from h]
    rfl
  | map method =>
    cases method with
    | containsKey =>
      cases receiver <;> cases h
      simp only [← MapMethod.isSome_lookup?]
      rfl
    | containsValue =>
      cases receiver <;> cases h
      simp only [← MapMethod.containsValueOf_eq]
      rfl
    | _ => cases h
  | _ => cases h

end Method

/-! ### Dispatch -/

/-- A call of the name on the receiver is one of the method. -/
def Environment.Calls (env : Environment) (receiver : Value) (name : String) (method : Method) :
    Prop :=
  ∃ type, receiver.typeName? = some type ∧
    env.registry.method? env.catalog type name = some method

namespace Environment

variable {env : Environment} {receiver : Value}

theorem calls_contains (hregistry : env.registry = .builtin) (hcatalog : env.catalog.LeavesBuiltin)
    {elements : List Value} (helements : receiver.elements? = some elements) :
    env.Calls receiver CollectionMethod.contains.name (.collection .contains) := by
  have hmethod : ∀ type : DataType, type = .array ∨ type = .list ∨ type = .set →
      env.registry.method? env.catalog type.name CollectionMethod.contains.name =
        some (.collection .contains) := by
    intro type htype
    rw [hregistry, Registry.method?_of_leavesBuiltin _ hcatalog type.isSome_builtinSupertypes?]
    rcases htype with rfl | rfl | rfl <;> rfl
  cases receiver <;> cases helements
  · exact ⟨_, rfl, hmethod .array (by simp)⟩
  · exact ⟨_, rfl, hmethod .list (by simp)⟩
  · exact ⟨_, rfl, hmethod .set (by simp)⟩

theorem calls_mapMethod (hregistry : env.registry = .builtin) (method : MapMethod)
    (entries : List (Value × Value)) : env.Calls (.map entries) method.name (.map method) := by
  refine ⟨_, rfl, ?_⟩
  rw [hregistry]
  exact Registry.method?_of_ownMethod? env.catalog (by decide)
    (Registry.hasMapMethods_builtin method)

end Environment

namespace Expr

variable {env : Environment} {context : Context} {e : Expr} {receiver : Value}
  {name v : String} {method : Method} {members : List Value} {declared : Option String}

/-! ### Variables as arguments -/

theorem member_settles_unbound (h : context.binding? v = none) (members : List Value)
    (supply : InstanceId) : Settles (((var v).argument env).member members) context supply
      ⟨.error (.unbound ⟨v, some members⟩), context, .empty, supply⟩ := by
  rw [Argument.member]
  refine .readContext ?_
  rw [h]
  exact .throw _

/-- In the context a call with a variable as its only argument offers the members to the variable as
long as it has no value, and holds once it has one that is a member and strictly equal to itself. -/
structure FindsMembers (env : Environment) (context : Context) (call : String → Expr)
    (members : List Value) : Prop where
  offered : ∀ v, context.binding? v = none → ∀ supply,
    (call v).resolution env context supply = .ok (.unbound ⟨v, some members⟩)
  found : ∀ v, ∀ member ∈ members, context.binding? v = some member → member.strictEq member →
    (call v).Evaluates env context (.ofBool true)

theorem Evaluates.findsMembers (h : e.Evaluates env context (.value receiver))
    (hcalls : env.Calls receiver name method) (hmembers : method.members? receiver = some members)
    (declared : Option String) :
    FindsMembers env context (fun v => invoke (some e) name [var v] declared) members := by
  obtain ⟨type, htype, hmethod⟩ := hcalls
  constructor
  · intro v hbinding supply
    have hstops : ∀ supply, ∃ trace after,
        Settles (method.evaluate (e.callOf env name [var v] declared) receiver) context supply
          ⟨.error (.unbound ⟨v, some members⟩), context, trace, after⟩ := by
      intro supply
      rw [callOf, List.map_singleton, Method.evaluate_of_members? hmembers]
      exact ⟨_, _, (member_settles_unbound hbinding members supply).bind_error⟩
    obtain ⟨_, _, hsettles⟩ := h.invoke_settles htype hmethod hstops supply
    exact resolution_of_result hsettles
  · intro v member hmember hbinding hself
    have hany : (members.any fun other => other.looseEq member) = true :=
      List.any_eq_true.mpr ⟨member, hmember, Value.looseEq_of_strictEq hself⟩
    refine h.invoke_settles htype hmethod fun supply => ?_
    obtain ⟨trace, after, hargument⟩ := (evaluates_var hbinding).member members supply
    rw [callOf, List.map_singleton, Method.evaluate_of_members? hmembers, ← hany]
    exact ⟨_, after, hargument.bind (.pure _)⟩

/-- Values that are strictly equal are loosely equal. So a call of a test of membership offers the
members of its receiver to a variable without a value, and holds for each of them that is strictly
equal to itself. With the built-in methods these calls are the test of arrays, lists and sets by
element, and those of maps by key and by value. -/
theorem members_found_by_strictEq :
    (∀ left right : Value, left.strictEq right → left.looseEq right) ∧
    (∀ (env : Environment) (context : Context) (e : Expr) (receiver : Value) (name : String)
      (method : Method) (members : List Value) (declared : Option String),
      e.Evaluates env context (.value receiver) → env.Calls receiver name method →
        method.members? receiver = some members →
          FindsMembers env context (fun v => invoke (some e) name [var v] declared) members) ∧
    ∀ (env : Environment) (context : Context) (e : Expr) (declared : Option String),
      env.registry = .builtin →
        (∀ (receiver : Value) (elements : List Value), env.catalog.LeavesBuiltin →
          e.Evaluates env context (.value receiver) → receiver.elements? = some elements →
            FindsMembers env context
              (fun v => invoke (some e) "contains" [var v] declared) elements) ∧
        ∀ entries : List (Value × Value), e.Evaluates env context (.value (.map entries)) →
          FindsMembers env context (fun v => invoke (some e) "containsKey" [var v] declared)
            (entries.map (·.1)) ∧
          FindsMembers env context (fun v => invoke (some e) "containsValue" [var v] declared)
            (entries.map (·.2)) := by
  refine ⟨fun _ _ => Value.looseEq_of_strictEq, ?_, ?_⟩
  · intro env context e receiver name method members declared h hcalls hmembers
    exact h.findsMembers hcalls hmembers declared
  · intro env context e declared hregistry
    constructor
    · intro receiver elements hcatalog h helements
      have hcalls := Environment.calls_contains hregistry hcatalog helements
      exact h.findsMembers hcalls helements declared
    · intro entries h
      have hkey := Environment.calls_mapMethod hregistry .containsKey entries
      have hvalue := Environment.calls_mapMethod hregistry .containsValue entries
      exact ⟨h.findsMembers hkey rfl declared, h.findsMembers hvalue rfl declared⟩

/-- A list that is a member of a set, beside not-a-number, and a key of a map. -/
theorem members_found_by_strictEq_list :
    let env : Environment := ⟨.empty, .builtin, .detached⟩
    let member : Value := .list [.decimal ⟨10, 1⟩, .set [.string "a"]]
    let set : Value := .set [.double .nan, member]
    let map : Value := .map [(member, .double .nan)]
    let contextOf (value : Value) : Context := (candidateContext value).setVariable "v" member
    member.strictEq member ∧ member.looseEq member ∧ env.catalog.LeavesBuiltin ∧
      (callMethod candidate "contains" [var "v"]).Evaluates env (contextOf set) (.ofBool true) ∧
      (callMethod candidate "containsKey" [var "v"]).Evaluates env (contextOf map) (.ofBool true) ∧
      ∀ supply,
        (callMethod candidate "containsValue" [var "w"]).resolution env (contextOf map) supply =
        .ok (.unbound ⟨"w", some [.double .nan]⟩) := by
  intro env member set map contextOf
  obtain ⟨hloose, -, hbuiltin⟩ := members_found_by_strictEq
  have hself : member.strictEq member := by decide
  have hcandidate : ∀ value, candidate.Evaluates env (contextOf value) (.value value) :=
    fun value => evaluates_candidate env rfl
  obtain ⟨hcontains, -⟩ := hbuiltin env (contextOf set) candidate none rfl
  have helements := hcontains set _ Catalog.leavesBuiltin_empty (hcandidate set) rfl
  obtain ⟨-, hmap⟩ := hbuiltin env (contextOf map) candidate none rfl
  obtain ⟨hkeys, hvalues⟩ := hmap [(member, .double .nan)] (hcandidate map)
  exact ⟨hself, hloose _ _ hself, Catalog.leavesBuiltin_empty,
    helements.found "v" member (by simp) rfl hself, hkeys.found "v" member (by simp) rfl hself,
    hvalues.offered "w" rfl⟩

/-- A member that is not equal to itself is not found. -/
example : CollectionMethod.isMember [.double .nan] (.double .nan) = false := by decide

end Expr

end ObjectQuery
