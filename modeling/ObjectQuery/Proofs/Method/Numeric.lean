import ObjectQuery.Proofs.Method.Calling

/-!
Calls of functions and methods of numbers. Main statements: where the argument of a function has a
value, a call comes to what the function makes of it, and where the receiver of a method is a
number, a call without arguments comes to what it is converted to.
-/

namespace ObjectQuery

variable {env : Environment} {context : Context} {supply after : InstanceId} {trace : Trace}
  {e : Expr} {value other : Value} {name : String}

/-! ### Functions -/

theorem MathFunction.evaluate_settles {function : MathFunction} {call : Call} {argument : Argument}
    (hargs : call.args = [argument])
    (hargument : Settles argument.operand context supply
      ⟨.ok (.value value), context, trace, after⟩) (happly : function.apply value = .ok other) :
    ∃ trace', Settles (function.evaluate call) context supply
      ⟨.ok (.value other), context, trace', after⟩ := by
  have hcheck : call.checkCount arity = pure () := by
    rw [Call.checkCount, hargs]
    rfl
  have hresult : Settles (do return .value (← Eval.ofExcept (function.apply value)) : Eval Operand)
      context after ⟨.ok (.value other), context, .empty, after⟩ := by
    rw [happly]
    exact .pure _
  rw [evaluate, hcheck, pure_bind, hargs]
  exact ⟨_, hargument.bind hresult⟩

theorem Expr.Evaluates.mathFunction {function : MathFunction}
    (haggregate : AggregateKind.ofName? name = none)
    (hfunction : env.registry.function? name = some (.math function))
    (h : e.Evaluates env context (.value value)) (happly : function.apply value = .ok other) :
    (callFunction name [e]).Evaluates env context (.value other) := by
  intro supply
  obtain ⟨trace, after, hsettles⟩ := h supply
  have hargs : arguments env [e] = [e.argument env] := rfl
  have hresult : (callFunction name [e]).result env .operand =
      function.evaluate ⟨none, name, arguments env [e], none⟩ := by
    rw [callFunction, result, haggregate]
    simp only [Environment.callFunction, hfunction]
    rfl
  rw [← operand_argument] at hsettles
  obtain ⟨trace', hcall⟩ : ∃ trace', Settles
      (function.evaluate ⟨none, name, arguments env [e], none⟩) context supply
      ⟨.ok (.value other), context, trace', after⟩ :=
    MathFunction.evaluate_settles hargs hsettles happly
  rw [hresult]
  exact ⟨trace', after, hcall⟩

/-! ### Methods -/

theorem Catalog.exists_ancestry_eq (catalog : Catalog) {type above : String} {rest : List String}
    (hclass : catalog.classes.get? type = none)
    (hsupers : builtinSupertypes? type = some (above :: rest)) (htype : type ≠ rootType)
    (habove : above ≠ rootType) (hne : above ≠ type) :
    ∃ others, catalog.ancestry type = type :: above :: others := by
  have hdirect : catalog.directSupertypes type = above :: rest := by
    rw [directSupertypes, hclass, hsupers]
    rfl
  obtain ⟨chain, hwalks, hancestry⟩ := catalog.walks_ancestry type
  cases hwalks with
  | skip hseen _ => simp [htype] at hseen
  | visit _ _ hfirst =>
    rw [List.nil_append, List.nil_append, hdirect] at hfirst
    cases hfirst with
    | skip hseen _ => simp [habove, hne] at hseen
    | visit _ _ hsecond =>
      obtain ⟨others, rfl⟩ := hsecond.prefix
      exact ⟨others ++ [rootType], by rw [hancestry]; rfl⟩

theorem Registry.names_methods_builtin : builtin.methods.map (·.1) =
    ["String", "Collection", "List", "Array", "Map", "Number", rootType] := by
  decide +kernel

theorem Registry.ownMethod?_number (method : NumberMethod) :
    builtin.ownMethod? "Number" method.name = some (.number method) := by
  cases method <;> rfl

theorem Registry.method?_of_isNumeric (catalog : Catalog) {type : String}
    (hnumeric : value.isNumeric) (htype : value.typeName? = some type)
    (hclass : catalog.classes.get? type = none)
    (method : NumberMethod) :
    builtin.method? catalog type method.name = some (.number method) := by
  have hsupers : builtinSupertypes? type = some ["Number", "Comparable"] := by
    cases value <;> first | (cases htype; rfl) | cases hnumeric
  have hroot : type ≠ rootType := by
    rintro rfl
    exact absurd hsupers (by decide)
  have hne : "Number" ≠ type := by
    rintro rfl
    exact absurd hsupers (by decide)
  have hown : builtin.ownMethod? type method.name = none := by
    have hnone : builtin.methods.get? type = none := by
      have hmem : type ∉ builtin.methods.map (·.1) := by
        rw [Registry.names_methods_builtin]
        cases value <;> first | (cases htype; decide) | cases hnumeric
      rw [Bindings.get?_eq_none_iff]
      exact fun pair hpair hname => hmem (hname ▸ List.mem_map_of_mem hpair)
    rw [ownMethod?, hnone]
    rfl
  obtain ⟨others, hancestry⟩ := catalog.exists_ancestry_eq hclass hsupers hroot (by decide) hne
  rw [method?, hancestry, List.findSome?_cons, hown, List.findSome?_cons,
    Registry.ownMethod?_number]

theorem NumberMethod.evaluate_of_toDouble? {method : NumberMethod} {call : Call} {receiver : Value}
    {x : Double} (hargs : call.args = []) (h : receiver.toDouble? = some x) :
    method.evaluate call receiver = pure (.value (method.convert receiver x)) := by
  simp only [evaluate, Call.checkCount, hargs, h]
  rfl

theorem Expr.Evaluates.numberMethod {method : NumberMethod} {x : Double} {type : String}
    (htype : value.typeName? = some type)
    (hmethod : env.registry.method? env.catalog type name = some (.number method))
    (hdouble : value.toDouble? = some x) (h : e.Evaluates env context (.value value)) :
    (callMethod e name []).Evaluates env context (.value (method.convert value x)) := by
  have hrun : (Method.number method).evaluate (e.callOf env name [] none) value =
      pure (.value (method.convert value x)) := NumberMethod.evaluate_of_toDouble? rfl hdouble
  refine h.method htype hmethod fun supply => ⟨.empty, supply, ?_⟩
  rw [hrun]
  exact .pure _

end ObjectQuery
