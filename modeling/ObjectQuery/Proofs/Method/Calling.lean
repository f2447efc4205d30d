import ObjectQuery.Proofs.Catalog.Ancestry
import ObjectQuery.Proofs.Evaluation.Operands

/-!
Calls of methods on receivers that have a value. Main statement: such a call comes to what the
method that the type of the receiver has makes of it. Arguments that have values are evaluated to
them, also where a variable could offer candidates.
-/

namespace ObjectQuery

variable {env : Environment} {context : Context} {name type : String}

theorem Catalog.exists_ancestry_eq_cons (catalog : Catalog) (htype : type ≠ rootType) :
    ∃ above, catalog.ancestry type = type :: above := by
  obtain ⟨chain, hwalks, hancestry⟩ := catalog.walks_ancestry type
  cases hwalks with
  | skip hseen _ => simp [htype] at hseen
  | visit _ _ hrest =>
    obtain ⟨above, rfl⟩ := hrest.prefix
    exact ⟨above ++ [rootType], by rw [hancestry]; rfl⟩

theorem Registry.method?_of_ownMethod? {registry : Registry} (catalog : Catalog) {method : Method}
    (htype : type ≠ rootType) (h : registry.ownMethod? type name = some method) :
    registry.method? catalog type name = some method := by
  obtain ⟨above, hancestry⟩ := catalog.exists_ancestry_eq_cons htype
  rw [method?, hancestry, List.findSome?_cons, h]

theorem Environment.callMethod_of_method? {receiver : Value} {method : Method} {call : Call}
    (htype : receiver.typeName? = some type)
    (hmethod : env.registry.method? env.catalog type call.name = some method) :
    env.callMethod receiver call = method.evaluate call receiver := by
  have hnull : receiver.isNull = false := by
    cases receiver <;> first | rfl | cases htype
  have hdispatch : env.receiverType? receiver call.declared = some type := by
    cases receiver <;> first | exact htype | cases htype
  simp only [callMethod, methodFor?, hdispatch, hmethod, hnull, Bool.false_eq_true, if_false]

namespace Expr

variable {e : Expr} {operand : Operand} {receiver value : Value}

/-- What an expression is as an argument. -/
def argument (env : Environment) (e : Expr) : Argument where
  expr := e
  visit := do Eval.push (← result env e .operand)

theorem arguments_eq_map (env : Environment) (es : List Expr) :
    arguments env es = es.map (argument env) := by
  induction es with
  | nil => rfl
  | cons e rest ih => rw [arguments, ih]; rfl

theorem operand_argument (env : Environment) (e : Expr) :
    (e.argument env).operand = e.result env .operand :=
  Argument.operand_of_visit rfl

theorem Evaluates.binding_isSome (h : (var name).Evaluates env context operand) :
    ∃ value, context.binding? name = some value := by
  cases hbinding : context.binding? name with
  | some value => exact ⟨value, rfl⟩
  | none =>
    have hstops : Settles ((var name).result env .operand) context default
        ⟨.error (.unbound ⟨name, none⟩), context, .empty, default⟩ := by
      rw [result, variableOperand]
      refine .readContext ?_
      rw [hbinding]
      exact .throw _
    have hresolution := h.resolution_eq default
    rw [resolution_of_result hstops] at hresolution
    cases hresolution

theorem Evaluates.member (h : e.Evaluates env context operand) (candidates : List Value)
    (supply : InstanceId) :
    ∃ trace after, Settles ((e.argument env).member candidates) context supply
      ⟨.ok operand, context, trace, after⟩ := by
  obtain ⟨trace, after, hsettles⟩ := h supply
  rw [← operand_argument] at hsettles
  refine ⟨trace, after, ?_⟩
  rw [Argument.member]
  cases hname : (e.argument env).expr.variableName? with
  | none => exact hsettles
  | some name =>
    -- A variable that comes to an operand is bound, so it does not stop here.
    obtain rfl : e = var name := by
      cases e <;> first | cases hname; rfl | cases hname
    obtain ⟨value, hbinding⟩ := h.binding_isSome
    refine .readContext ?_
    rw [hbinding]
    exact hsettles

/-- A call of a method as it is written. -/
def callOf (env : Environment) (e : Expr) (name : String) (args : List Expr)
    (declared : Option String) : Call :=
  ⟨some (e.argument env), name, args.map (argument env), declared⟩

theorem Evaluates.invoke_settles {method : Method} {args : List Expr} {declared : Option String}
    (h : e.Evaluates env context (.value receiver)) (htype : receiver.typeName? = some type)
    (hmethod : env.registry.method? env.catalog type name = some method)
    {result : Except Halt Operand}
    (hcall : ∀ supply, ∃ trace after,
      Settles (method.evaluate (e.callOf env name args declared) receiver) context supply
        ⟨result, context, trace, after⟩) (supply : InstanceId) :
    ∃ trace after, Settles ((invoke (some e) name args declared).result env .operand) context supply
      ⟨result, context, trace, after⟩ := by
  obtain ⟨trace, middle, hreceiver⟩ := h supply
  obtain ⟨trace', after, hanswer⟩ := hcall middle
  have hdispatch : env.callMethod receiver (e.callOf env name args declared) = _ :=
    Environment.callMethod_of_method? htype hmethod
  rw [← hdispatch] at hanswer
  rw [Expr.result, operandOf_eq, arguments_eq_map]
  exact ⟨_, after, hreceiver.bind hanswer⟩

theorem Evaluates.method {method : Method} {args : List Expr}
    (h : e.Evaluates env context (.value receiver)) (htype : receiver.typeName? = some type)
    (hmethod : env.registry.method? env.catalog type name = some method)
    (hcall : ∀ supply, ∃ trace after,
      Settles (method.evaluate (e.callOf env name args none) receiver) context supply
        ⟨.ok operand, context, trace, after⟩) :
    (callMethod e name args).Evaluates env context operand :=
  h.invoke_settles htype hmethod hcall

end Expr

end ObjectQuery
