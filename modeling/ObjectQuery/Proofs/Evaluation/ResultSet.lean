import ObjectQuery.Proofs.Evaluation.Resolution

/-!
The result set. It is read by aggregates alone. Main statement: contexts that differ in their result
sets alone are the same to an expression that contains no aggregate.
-/

namespace ObjectQuery

/-- The context with another result set, or with none. -/
def Context.withResultSet (context : Context) (members : Option (List Value)) : Context :=
  { context with resultSet := members }

namespace Agreement

/-- Equality but for the result set, for evaluations that take no aggregates. -/
def apartFromResultSet : Agreement := ⟨id, Function.injective_id, fun _ => True, False⟩

theorem contexts_withResultSet (context : Context) (members : Option (List Value)) :
    apartFromResultSet.Contexts context (context.withResultSet members) := by
  constructor <;> simp [apartFromResultSet, Context.withResultSet, Context.parameter,
    Context.binding?]

theorem supplies_apartFromResultSet (supply : InstanceId) :
    apartFromResultSet.Supplies supply supply := fun _ => rfl

theorem admits_apartFromResultSet {node : Expr} (h : node.namesAggregate = false) :
    apartFromResultSet.Admits node := by
  cases node with
  | literal value => exact Value.rename_id value
  | invoke receiver method args declared =>
    cases receiver with
    | none =>
      have hnone : (AggregateKind.ofName? method).isSome = false := h
      intro hsome
      rw [hnone] at hsome
      cases hsome
    | some e => trivial
  | _ => trivial

end Agreement

namespace Expr

open Agreement

theorem evaluate_settles_withResultSet (env : Environment) [env.registry.EvaluatesArguments]
    {e : Expr} (h : e.containsAggregate = false) (context : Context) (supply : InstanceId)
    (members : Option (List Value)) :
    ∃ result trace made,
      Settles (e.evaluate env) context supply ⟨result, context, trace, supply.advance made⟩ ∧
      Settles (e.evaluate env) (context.withResultSet members) supply
        ⟨result, context.withResultSet members, trace, supply.advance made⟩ := by
  have hadmits : e.All apartFromResultSet.Admits :=
    ((containsAggregate_eq_false_iff e).mp h).imp fun _ => admits_apartFromResultSet
  have hid : Resolution.rename apartFromResultSet.rename = id := funext Resolution.rename_id
  obtain ⟨result, trace, made, hfirst, hsecond, -⟩ :=
    evaluate_agrees (Environment.Respects.refl env) hadmits
      (contexts_withResultSet context members) (supplies_apartFromResultSet supply)
  rw [hid, Except.map_id] at hsecond
  exact ⟨result, trace, made, hfirst, hsecond⟩

/-- An expression without aggregates comes to the same, records the same and leaves the same on
machines whose contexts differ in their result sets alone. -/
theorem completion_evaluate_withResultSet (env : Environment) [env.registry.EvaluatesArguments]
    (e : Expr) (h : e.containsAggregate = false) (machine : Machine)
    (members : Option (List Value)) :
    completion (e.evaluate env) (machine.mapContext (·.withResultSet members)) =
      ((completion (e.evaluate env) machine).1,
        (completion (e.evaluate env) machine).2.mapContext (·.withResultSet members)) := by
  obtain ⟨context, stack, before, supply⟩ := machine
  obtain ⟨result, trace, made, hfirst, hsecond⟩ :=
    evaluate_settles_withResultSet env h context supply members
  rw [completion_evaluate_of_settles hfirst]
  exact completion_evaluate_of_settles hsecond stack before

/-- The candidate is compared with a number, once with a result set and once without. -/
theorem completion_evaluate_withResultSet_negative :
    let env : Environment := ⟨default, .empty, .detached⟩
    let e := binary .lt (path none ["this"]) (literal (.long 0))
    let machine := Machine.start
      ⟨"this", [], [("this", .long (-2))], [], some [.long 1, .null]⟩ .empty default
    e.containsAggregate = false ∧
      completion (e.evaluate env) (machine.mapContext (·.withResultSet none)) =
        (.ok (.resolved (.ofBool true)), machine.mapContext (·.withResultSet none)) := by
  intro env e machine
  have hrun : completion (e.evaluate env) machine =
      (.ok (.resolved (.ofBool true)), machine) := rfl
  refine ⟨rfl, ?_⟩
  rw [completion_evaluate_withResultSet env e rfl, hrun]

end Expr

end ObjectQuery
