import ObjectQuery.Proofs.Catalog.Construction
import ObjectQuery.Proofs.Evaluation.Arguments

/-!
New objects and their fields. Main statement: a new object is made by the first constructor that
fits the arguments, and a path from it to a field of the constructor comes to the argument of the
last parameter that has the field, wherever the fields of other objects come from.
-/

namespace ObjectQuery

variable {env : Environment} {machine after : Machine} {full typeName field : String}
  {c : Constructor} {args : List Value} {value : Value}

/-! ### Members of new objects -/

theorem FieldAccess.fieldIndex?_of_not_isManaged (access : FieldAccess) {object : Object}
    (h : object.isManaged = false) (member : String) : access.fieldIndex? object member = none := by
  cases access with
  | detached => rfl
  | stored store => rw [fieldIndex?, ObjectStore.fieldIndex?, h]; rfl

namespace Environment

theorem navigate_field {object : Object} (hmanaged : object.isManaged = false)
    (hfield : object.field? field = some value) (env : Environment) :
    env.navigate object.toValue [field] = pure (.value value) := by
  have hmember : env.member object field = pure (some value) := by
    rw [member, env.access.fieldIndex?_of_not_isManaged hmanaged, hfield]
  rw [Object.toValue, navigate_object, hmember, pure_bind]
  exact navigate_nil env value

theorem allValues_map_value (values : List Value) :
    allValues (values.map Operand.value) = some values := by
  induction values with
  | nil => rfl
  | cons value rest ih => rw [List.map_cons, allValues, ih]; rfl

theorem create_of_constructor? (hresolve : env.catalog.resolve? typeName = some full)
    (hconstructor : env.catalog.constructor? full args = some c) (machine : Machine) :
    env.create typeName args machine =
      .ok (.value (c.build machine.supply full args).toValue)
        { machine with supply := machine.supply.next } := by
  rw [create, hresolve]
  simp only [hconstructor]
  rfl

end Environment

namespace Expr

open Environment

/-! ### Creation -/

theorem result_creator [env.registry.EvaluatesArguments] {exprs : List Expr}
    (hcome : ComeTo env exprs machine args after) (typeName : String) (position : Position) :
    (creator typeName exprs).result env position machine = env.create typeName args after := by
  have hvisits := hcome.visits machine.stack
  have hlength : (arguments env exprs).length = (args.map Operand.value).length := by
    rw [arguments_eq_map, List.length_map, List.length_map, hcome.length_eq]
  have hpop := Agreement.popMany_append (args.map Operand.value) machine.stack after.context
    after.trace after.supply
  rw [← hlength] at hpop
  simp only [result, Bind.bind, EStateM.bind, hvisits, hpop, allValues_map_value]
  rw [← hcome.stack_eq]

theorem completion_path_creator [env.registry.EvaluatesArguments] {exprs : List Expr}
    (hcome : ComeTo env exprs machine args after)
    (hresolve : env.catalog.resolve? typeName = some full)
    (hconstructor : env.catalog.constructor? full args = some c)
    (hlast : c.LastArgument args field value) :
    completion ((path (some (creator typeName exprs)) [field]).evaluate env) machine =
      (.ok (.resolved (.value value)), { after with supply := after.supply.next }) := by
  refine completion_evaluate_of_result ?_ hcome.stack_eq
  have hcreated := result_creator hcome typeName .root
  rw [create_of_constructor? hresolve hconstructor] at hcreated
  have hnavigate := navigate_field (c.isManaged_build after.supply full args)
    (Constructor.field?_build hlast after.supply full) env
  have hpath : (path (some (creator typeName exprs)) [field]).result env .operand =
      (creator typeName exprs).result env .root >>= fun root => env.pathFrom root [field] := rfl
  rw [hpath]
  simp only [Bind.bind, EStateM.bind, hcreated, pathFrom, hnavigate]
  rfl

/-- From arguments an object of a user type is made exactly if a constructor has a parameter for
each of them that takes it, or if the type has no constructors and there are no arguments. The first
constructor that fits makes it, also by ancestries that are remembered. If the arguments come from
expressions, the path from the new object to a field of the constructor comes to the argument of the
last parameter that has the field, from memory as from a store. -/
theorem created_by_first_fit [env.registry.EvaluatesArguments] {info : ClassInfo}
    (hclass : env.catalog.classes.get? full = some info) (args : List Value) :
    MadeByFirstFit env.catalog env.catalog.ancestry full info.constructors args
      (fun id => env.catalog.construct? id full args) ∧
    (∀ memo : MemoCatalog, memo.catalog = env.catalog →
      MadeByFirstFit env.catalog memo.known full info.constructors args
        fun id => ((MemoCatalog.construct? id full args).run memo).1) ∧
    ∀ typeName exprs machine after, env.catalog.resolve? typeName = some full →
      ComeTo env exprs machine args after →
      ∀ c, env.catalog.IsFirstFit env.catalog.ancestry args info.constructors c →
      ∀ param ∈ c.params, ∃ value, c.LastArgument args param.field value ∧
        completion ((path (some (creator typeName exprs)) [param.field]).evaluate env) machine =
          (.ok (.resolved (.value value)), { after with supply := after.supply.next }) := by
  refine ⟨Catalog.construct?_madeByFirstFit hclass args, ?_, ?_⟩
  · intro memo hmemo
    rw [← hmemo] at hclass ⊢
    exact memo.construct?_madeByFirstFit hclass args
  · intro typeName exprs machine after hresolve hcome c hfirst param hparam
    obtain ⟨-, -, -, ⟨hlength, -⟩, -⟩ := id hfirst
    obtain ⟨value, hlast⟩ := Constructor.exists_lastArgument hlength hparam
    exact ⟨value, hlast, completion_path_creator hcome hresolve
      (Catalog.constructor?_of_isFirstFit hclass hfirst) hlast⟩

/-- A text makes an interval, and so do a number and two more; the last of these is stored over the
first. -/
def interval : ClassInfo where
  name := "acme.Interval"
  superclass := none
  interfaces := []
  fields := none
  constructors := [⟨[⟨"low", "String"⟩]⟩,
    ⟨[⟨"low", "Integer"⟩, ⟨"high", "java.lang.Number"⟩, ⟨"low", "Object"⟩]⟩]

def intervals : Catalog := ⟨[("acme.Interval", interval)], [("Interval", "acme.Interval")]⟩

/-- The second constructor takes a number of another kind and null, and the truth value is stored
last. -/
theorem created_by_first_fit_interval :
    let env : Environment := ⟨intervals, .empty, .stored .empty⟩
    let exprs := [literal (.long 1), literal .null, literal (.boolean true)]
    let machine := Machine.start ⟨"this", [], [], [], none⟩ .empty default
    let run := fun field =>
      completion ((path (some (creator "Interval" exprs)) [field]).evaluate env) machine
    env.catalog.classes.get? "acme.Interval" = some interval ∧
      env.catalog.construct? default "acme.Interval" [] = none ∧
      run "low" = (.ok (.resolved (.value (.boolean true))), { machine with supply := ⟨0, 0, 1⟩ }) ∧
      run "high" = (.ok (.resolved (.value .null)), { machine with supply := ⟨0, 0, 1⟩ }) := by
  intro env exprs machine run
  have hclass : env.catalog.classes.get? "acme.Interval" = some interval := rfl
  have hresolve : env.catalog.resolve? "Interval" = some "acme.Interval" := by decide +kernel
  have hcome : ComeTo env exprs machine [.long 1, .null, .boolean true] machine := rfl
  obtain ⟨hnone, -, -⟩ := created_by_first_fit hclass []
  obtain ⟨-, -, hpath⟩ := created_by_first_fit hclass [.long 1, .null, .boolean true]
  have hrun := hpath "Interval" exprs machine machine hresolve hcome _
    ⟨[⟨[⟨"low", "String"⟩]⟩], [], rfl, by decide +kernel, by decide +kernel⟩
  refine ⟨hclass, ?_, ?_, ?_⟩
  · have hfails := (not_congr (hnone.succeeds default)).mpr (by decide +kernel)
    simpa using hfails
  · obtain ⟨value, hlast, hlow⟩ := hrun ⟨"low", "Object"⟩ (by decide)
    obtain rfl : Value.boolean true = value :=
      Option.some.inj (Constructor.field?_build hlast default "")
    exact hlow
  · obtain ⟨value, hlast, hhigh⟩ := hrun ⟨"high", "java.lang.Number"⟩ (by decide)
    obtain rfl : Value.null = value := Option.some.inj (Constructor.field?_build hlast default "")
    exact hhigh

end Expr

end ObjectQuery
