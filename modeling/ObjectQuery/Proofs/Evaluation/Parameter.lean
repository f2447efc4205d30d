import ObjectQuery.Proofs.Evaluation.Resolution
import ObjectQuery.Proofs.Expr.Inlining
import ObjectQuery.Proofs.Method.Inlining

/-!
Parameters. Main statement: an expression is evaluated with a value for a parameter as it is with
the value in place of the parameter, unless the parameter stands where a type has to be named.
-/

namespace ObjectQuery

variable {name : String} {value : Value} {env : Environment}

/-! ### Operations -/

theorem BinaryOperator.apply_inlines (op : BinaryOperator) (left right : Operand) :
    Inlines name value (op.apply left right) (op.apply left right) := by
  refine .of_mirrors Operand.rename_id ?_ fun _ _ =>
    op.apply_mirrors left right
  simp [Agreement.refl]

namespace Environment

theorem navigate_inlines (root : Value) (segments : List String) :
    Inlines name value (env.navigate root segments) (env.navigate root segments) := by
  refine .of_mirrors Operand.rename_id ?_ fun _ _ =>
    navigate_mirrors env.access.respects_id root segments
  simp [Agreement.refl]

theorem pathFrom_inlines (root : Operand) (segments : List String) :
    Inlines name value (env.pathFrom root segments) (env.pathFrom root segments) := by
  cases root with
  | value root => exact navigate_inlines root segments
  | unresolved => exact .pure _

theorem path_inlines (segments : List String) :
    Inlines name value (env.path segments) (env.path segments) := by
  refine .readContext fun context => ?_
  have hroot : pathRoot (context.setParameter name value) segments = pathRoot context segments := by
    cases segments <;> rfl
  rw [hroot]
  rcases pathRoot context segments with ⟨root, rest⟩
  cases root with
  | none => exact .unresolved _
  | some root => exact navigate_inlines root rest

theorem castTo_inlines (target : String) (source : Operand) :
    Inlines name value (env.castTo target source) (env.castTo target source) := by
  refine .of_mirrors Operand.rename_id ?_ fun _ _ =>
    castTo_mirrors target source
  simp [Agreement.refl]

theorem create_inlines (typeName : String) (args : List Value) :
    Inlines name value (env.create typeName args) (env.create typeName args) := by
  refine .of_mirrors Operand.rename_id ?_ fun _ _ =>
    create_mirrors typeName args
  simp [Agreement.refl]

variable {first second : Call}

theorem callFunction_inlines [htells : env.registry.TellsErrorsByKind]
    (h : InlinesCall name value first second) :
    Inlines name value (env.callFunction first) (env.callFunction second) := by
  rw [callFunction, callFunction, h.name_eq]
  cases hmethod : env.registry.function? first.name with
  | none => exact .unresolved _
  | some method => exact method.evaluate_inlines (htells.every.functions _ _ hmethod) h .null

theorem callMethod_inlines [htells : env.registry.TellsErrorsByKind]
    (h : InlinesCall name value first second) (receiver : Value) :
    Inlines name value (env.callMethod receiver first) (env.callMethod receiver second) := by
  simp only [callMethod, h.name_eq, h.declared_eq]
  cases hmethod : env.methodFor? (env.receiverType? receiver first.declared) first.name with
  | none => exact .unresolved _
  | some method =>
    simp only
    split
    · exact .pure _
    · exact method.evaluate_inlines (htells.every.methodFor? hmethod) h receiver

end Environment

/-! ### Aggregates -/

/-- Aggregate arguments that count equal values alike and whose evaluations end alike. -/
structure InlinesAggregate (name : String) (value : Value) (first second : AggregateArgument) :
    Prop where
  distinct : second.distinct = first.distinct
  operand : Inlines name value first.operand second.operand

namespace InlinesAggregate

variable {first second : AggregateArgument} (h : InlinesAggregate name value first second)
include h

theorem collect (members : List Value) :
    Inlines name value (first.collect members) (second.collect members) := by
  induction members with
  | nil => exact .pure _
  | cons member rest ih =>
    refine (Inlines.modifyContext fun _ => rfl).bind fun _ => h.operand.bind fun operand => ?_
    cases operand with
    | unresolved => exact ih
    | value found => exact ih.bind fun _ => .pure _

theorem evaluate (kind : AggregateKind) :
    Inlines name value (kind.evaluate first) (kind.evaluate second) := by
  refine .readContext fun context => ?_
  have hresultSet : (context.setParameter name value).resultSet = context.resultSet := rfl
  have hselect : second.select = first.select := by
    funext values
    rw [AggregateArgument.select, h.distinct, AggregateArgument.select]
  rw [hresultSet, hselect]
  cases context.resultSet with
  | none => exact .unresolved _
  | some members =>
    exact (h.collect members).restoring.bind fun values =>
      (Inlines.ofExcept _).bind fun _ => .pure _

end InlinesAggregate

/-! ### Trees -/

/-- The operator takes the name of a type on the right. -/
def BinaryOperator.TakesType : BinaryOperator → Prop
  | is | isNot | cast => True
  | _ => False

namespace Expr

/-- The parameter stands where a type has to be named. -/
def TypedBy (name : String) : Expr → Prop
  | binary op _ right => op.TakesType ∧ right = parameter name
  | _ => False

/-- The expression and what inlining makes of it end alike wherever they stand. -/
def Inlined (env : Environment) (name : String) (value : Value) (e : Expr) : Prop :=
  ∀ position, Inlines name value (e.result env position)
    ((e.inline name value).result env position)

theorem Inlined.operandOf {e : Expr} (h : e.Inlined env name value) (position : Position) :
    Inlines name value (operandOf (e.result env position))
      (operandOf ((e.inline name value).result env position)) := by
  rw [operandOf_eq, operandOf_eq]
  exact h position

theorem parameter_inlined (other : String) : (parameter other).Inlined env name value := by
  intro position
  rw [inline]
  by_cases hother : other = name
  · subst hother
    rw [if_pos rfl]
    intro machine
    have hparameter : (machine.context.setParameter other value).parameter other = value := by
      simp [Context.parameter, Context.setParameter]
    have hrun : (parameter other).result env position (machine.given other value) =
        .ok (.value ((machine.context.setParameter other value).parameter other))
          (machine.given other value) := rfl
    rw [hrun, hparameter]
    exact .ok _ machine
  · rw [if_neg hother]
    refine .readContext fun context => ?_
    have hparameter : (context.setParameter name value).parameter other =
        context.parameter other := by
      simp [Context.parameter, Context.setParameter,
        Bindings.get?_insert_of_ne _ _ fun heq => hother heq.symm]
    rw [hparameter]
    exact .pure _

theorem variableOperand_inlines (position : Position) (missing : String) :
    Inlines name value (variableOperand position missing) (variableOperand position missing) := by
  refine .readContext fun context => ?_
  have hbinding : (context.setParameter name value).binding? missing =
      context.binding? missing := rfl
  rw [hbinding]
  cases context.binding? missing with
  | some bound => exact .pure _
  | none =>
    simp only
    split
    · exact .unresolved _
    · exact .stopOn missing none

theorem arguments_inlines [env.registry.EvaluatesArguments] {es : List Expr}
    (h : ∀ e ∈ es, e.Inlined env name value) :
    List.Forall₂ (InlinesArgument name value) (arguments env es)
      (arguments env (es.map (inline name value))) := by
  induction es with
  | nil => exact .nil
  | cons e rest ih =>
    have hkeeps (e : Expr) : Eval.Keeps (e.visit env) := fun machine =>
      let ⟨trace, made, heq⟩ := e.completion_evaluate env machine
      ⟨_, _, congrArg Prod.snd heq⟩
    refine .cons ⟨variableName?_inline name value e, ?_, hkeeps e, hkeeps _⟩
      (ih fun e he => h e (by simp [he]))
    exact (h e (by simp) .operand).bind fun operand => .push operand

theorem decideBranch_inlines (condition : Operand)
    {first first' otherwise otherwise' : Eval Operand} (hfirst : Inlines name value first first')
    (hotherwise : Inlines name value otherwise otherwise') :
    Inlines name value (decideBranch condition first otherwise)
      (decideBranch condition first' otherwise') := by
  unfold decideBranch
  split
  · exact hfirst
  · exact hotherwise
  · exact .unresolved _

theorem firstBranch_inlines {branches : List (Expr × Expr)} {otherwise otherwise' : Eval Operand}
    (h : ∀ branch ∈ branches, branch.1.Inlined env name value ∧ branch.2.Inlined env name value)
    (hotherwise : Inlines name value otherwise otherwise') :
    Inlines name value (firstBranch env branches otherwise)
      (firstBranch env
        (branches.map fun branch => (inline name value branch.1, inline name value branch.2))
        otherwise') := by
  induction branches with
  | nil => exact hotherwise
  | cons branch rest ih =>
    obtain ⟨hcondition, hresult⟩ := h branch (by simp)
    refine (hcondition.operandOf .operand).bind fun condition => ?_
    exact decideBranch_inlines condition (hresult.operandOf .operand)
      (ih fun branch hbranch => h branch (by simp [hbranch]))

theorem otherwiseOf_inlines {otherwise : Option Expr}
    (h : ∀ e ∈ otherwise, e.Inlined env name value) :
    Inlines name value (otherwiseOf env otherwise)
      (otherwiseOf env (otherwise.map (inline name value))) := by
  cases otherwise with
  | none => exact .pure _
  | some e => exact (h e rfl).operandOf .operand

theorem elementValues_inlines {es : List Expr} (h : ∀ e ∈ es, e.Inlined env name value) :
    Inlines name value (elementValues env es) (elementValues env (es.map (inline name value))) := by
  induction es with
  | nil => exact .pure _
  | cons e rest ih =>
    have hkind : e.isArrayElement = false → (inline name value e).kindName = e.kindName := by
      intro helement
      refine kindName_inline name value ?_
      rintro rfl
      cases helement
    rw [List.map_cons, elementValues, elementValues, isArrayElement_inline]
    split
    · refine ((h e (by simp)).operandOf .operand).bind fun operand => ?_
      cases operand with
      | unresolved => exact .pure _
      | value found => exact (ih fun e he => h e (by simp [he])).bind fun _ => .pure _
    · rename_i helement
      rw [hkind (by simpa using helement)]
      exact (Inlines.warn _).bind fun _ => .pure _

theorem typeName?_inline {e : Expr} (h : e ≠ parameter name) :
    Environment.typeName? (e.inline name value) = Environment.typeName? e := by
  cases e with
  | parameter other => rw [inline, if_neg fun heq => h (congrArg parameter heq)]
  | path qualifier segments => cases qualifier <;> rfl
  | _ => rfl

theorem typeOperand_inline {op : BinaryOperator} {left right : Expr}
    (h : ¬ (binary op left right).TypedBy name) (hop : op.TakesType) :
    env.typeOperand op (right.inline name value) = env.typeOperand op right := by
  have hright : right ≠ parameter name := fun hright => h ⟨hop, hright⟩
  rw [Environment.typeOperand, typeName?_inline hright, kindName_inline name value hright,
    Environment.typeOperand]

theorem binary_inlined {op : BinaryOperator} {left right : Expr}
    (h : ¬ (binary op left right).TypedBy name) (hleft : left.Inlined env name value)
    (hright : right.Inlined env name value) : (binary op left right).Inlined env name value := by
  intro position
  have hoperands : Inlines name value
      (do
        Eval.push (← left.result env .operand)
        Eval.push (← right.result env .operand)
        let r ← Eval.pop
        let l ← Eval.pop
        op.apply l r)
      (do
        Eval.push (← (left.inline name value).result env .operand)
        Eval.push (← (right.inline name value).result env .operand)
        let r ← Eval.pop
        let l ← Eval.pop
        op.apply l r) := by
    refine (hleft .operand).bind fun _ => (Inlines.push _).bind fun _ => ?_
    refine (hright .operand).bind fun _ => (Inlines.push _).bind fun _ => ?_
    exact Inlines.pop.bind fun r => Inlines.pop.bind fun l => op.apply_inlines l r
  cases op with
  | cast =>
    rw [inline, result, result, typeOperand_inline h trivial]
    split
    · refine (hleft .root).bind fun source => (Inlines.ofExcept _).bind fun target => ?_
      exact Environment.castTo_inlines target source
    · exact .fail (.refl _)
  | is | isNot =>
    rw [inline, result, result, typeOperand_inline h trivial]
    exact (hleft.operandOf .operand).bind fun _ => (Inlines.ofExcept _).bind fun _ => .pure _
  | _ => exact hoperands

theorem checkShape_inlines (op : UnaryOperator) (operand : Expr) :
    Inlines name value (Eval.ofExcept (op.checkShape operand))
      (Eval.ofExcept (op.checkShape (operand.inline name value))) := by
  have hparameter : (parameter name).inline name value = literal value := if_pos rfl
  cases op with
  | not | distinct => exact .ofExcept _
  | neg =>
    simp only [UnaryOperator.checkShape, isNegatable_inline]
    split
    · exact .ofExcept _
    · by_cases h : operand = parameter name
      · rw [h, hparameter]
        exact .fail .negation
      · rw [kindName_inline name value h]
        exact .fail (.refl _)
  | com =>
    simp only [UnaryOperator.checkShape, isPath_inline]
    split
    · exact .ofExcept _
    · by_cases h : operand = parameter name
      · rw [h, hparameter]
        exact .fail .complement
      · rw [kindName_inline name value h]
        exact .fail (.refl _)

theorem unary_inlined {op : UnaryOperator} {operand : Expr}
    (h : operand.Inlined env name value) : (unary op operand).Inlined env name value := by
  intro position
  rw [inline, result, result]
  split
  · exact h .operand
  · refine (checkShape_inlines op operand).bind fun _ => ?_
    exact (h.operandOf .operand).bind fun _ => .ofExcept _

theorem invoke_inlined [env.registry.TellsErrorsByKind] {receiver : Option Expr} {method : String}
    {args : List Expr} {declared : Option String}
    (hreceiver : ∀ e ∈ receiver, e.Inlined env name value)
    (hargs : ∀ e ∈ args, e.Inlined env name value) :
    (invoke receiver method args declared).Inlined env name value := by
  intro position
  have hcall (source source' : Option Argument) : InlinesCall name value
      ⟨source, method, arguments env args, declared⟩
      ⟨source', method, arguments env (args.map (inline name value)), declared⟩ :=
    ⟨rfl, rfl, arguments_inlines hargs⟩
  rw [inline, inlineOption_eq_map, inlineList_eq_map]
  cases receiver with
  | none =>
    rw [Option.map_none, result, result]
    have hfunction : Inlines name value
        (env.callFunction ⟨none, method, arguments env args, declared⟩)
        (env.callFunction
          ⟨none, method, arguments env (args.map (inline name value)), declared⟩) :=
      Environment.callFunction_inlines (hcall none none)
    cases AggregateKind.ofName? method with
    | none => exact hfunction
    | some kind =>
      cases args with
      | nil => exact hfunction
      | cons e rest =>
        cases rest with
        | cons _ _ => exact hfunction
        | nil =>
          have hargument : InlinesAggregate name value
              ⟨e.isDistinct, operandOf (e.result env .aggregated)⟩
              ⟨(e.inline name value).isDistinct,
                operandOf ((e.inline name value).result env .aggregated)⟩ :=
            ⟨isDistinct_inline name value e, (hargs e (by simp)).operandOf .aggregated⟩
          exact hargument.evaluate kind
  | some e =>
    refine ((hreceiver e rfl).operandOf .operand).bind fun operand => ?_
    cases operand with
    | unresolved => exact .pure _
    | value receiver => exact Environment.callMethod_inlines (hcall _ _) receiver

theorem creator_inlined [env.registry.EvaluatesArguments] {typeName : String} {args : List Expr}
    (h : ∀ e ∈ args, e.Inlined env name value) :
    (creator typeName args).Inlined env name value := by
  intro position
  have hargs := arguments_inlines h
  rw [inline, inlineList_eq_map, result, result]
  refine (Argument.visitAll_inlines hargs).bind fun _ => ?_
  rw [← hargs.length_eq]
  refine (Inlines.popMany _).bind fun operands => ?_
  cases Environment.allValues operands with
  | none => exact .pure _
  | some values => exact Environment.create_inlines typeName values

theorem inlined_of_untyped (env : Environment) [env.registry.TellsErrorsByKind] (name : String)
    (value : Value) {e : Expr} (h : e.All fun node => ¬ node.TypedBy name) :
    e.Inlined env name value := by
  induction h with
  | @node e hself _ ih =>
    cases e with
    | literal kept => exact fun _ => .pure _
    | parameter other => exact parameter_inlined other
    | var missing => exact fun position => variableOperand_inlines position missing
    | path qualifier segments =>
      intro position
      cases qualifier with
      | none => exact Environment.path_inlines segments
      | some qualifier =>
        exact (ih qualifier (by simp [children]) .root).bind fun root =>
          Environment.pathFrom_inlines root segments
    | binary op left right =>
      exact binary_inlined hself (ih left (by simp [children])) (ih right (by simp [children]))
    | unary op operand => exact unary_inlined (ih operand (by simp [children]))
    | invoke receiver method args declared =>
      refine invoke_inlined (fun e he => ih e ?_) fun e he => ih e ?_
      all_goals simp_all [children]
    | creator typeName args => exact creator_inlined ih
    | conditional branches otherwise =>
      intro position
      rw [inline, inlineBranches_eq_map, inlineOption_eq_map, result, result]
      refine firstBranch_inlines (fun branch hbranch => ⟨ih branch.1 ?_, ih branch.2 ?_⟩)
        (otherwiseOf_inlines fun e he => ih e ?_)
      · exact List.mem_append_left _ (List.mem_flatMap.mpr ⟨branch, hbranch, by simp⟩)
      · exact List.mem_append_left _ (List.mem_flatMap.mpr ⟨branch, hbranch, by simp⟩)
      · exact List.mem_append_right _ (by simpa using he)
    | array elements =>
      intro position
      rw [inline, inlineList_eq_map, result, result]
      refine (elementValues_inlines ih).bind fun values => ?_
      cases values <;> exact .pure _

/-! ### Whole expressions -/

theorem visit_inlines {e : Expr} (h : e.Inlined env name value) :
    Inlines name value (e.visit env) ((e.inline name value).visit env) :=
  (h .operand).bind fun operand => .push operand

/-- An expression in which a parameter stands nowhere that a type has to be named is evaluated with
a value for the parameter as it is with the value in its place: it comes to the same or fails with
an error of the same kind, reports and loads the same, and leaves the same but for the parameter. -/
theorem completion_evaluate_inline (env : Environment) [env.registry.TellsErrorsByKind] (e : Expr)
    (name : String) (value : Value) (machine : Machine)
    (h : e.All fun node => ¬ node.TypedBy name) :
    let bound := completion (e.evaluate env) (machine.given name value)
    let inlined := completion ((e.inline name value).evaluate env) machine
    Resolution.Alike bound.1 inlined.1 ∧ bound.2 = inlined.2.given name value := by
  intro bound inlined
  obtain ⟨hresult, htrace, hsupply⟩ :=
    (visit_inlines (inlined_of_untyped env name value h)).resolve machine
  obtain ⟨trace, made, hbound⟩ := completion_evaluate env e (machine.given name value)
  obtain ⟨trace', made', hinlined⟩ := completion_evaluate env (e.inline name value) machine
  refine ⟨hresult, ?_⟩
  change (completion (e.evaluate env) (machine.given name value)).2 =
    (completion ((e.inline name value).evaluate env) machine).2.given name value
  rw [← evaluate, ← evaluate, hbound, hinlined] at htrace hsupply
  rw [hbound, hinlined]
  simp only at htrace hsupply
  rw [htrace, hsupply]
  rfl

/-- An array of a parameter and the candidate, and of a number and the candidate. -/
theorem completion_evaluate_inline_array :
    let env : Environment := ⟨default, .empty, .detached⟩
    let e := array [parameter "p", path none ["this"]]
    let machine := Machine.start ⟨"this", [], [("this", .long 1)], [], none⟩ .empty default
    (e.All fun node => ¬ node.TypedBy "p") ∧
      e.inline "p" (.long 2) = array [literal (.long 2), path none ["this"]] ∧
      (completion ((e.inline "p" (.long 2)).evaluate env) machine).1 =
        .ok (.resolved (.value (.array [.long 2, .long 1]))) := by
  intro env e machine
  have huntyped : e.All fun node => ¬ node.TypedBy "p" := by
    refine .node id fun child hchild => ?_
    rcases List.mem_pair.mp hchild with rfl | rfl <;>
      exact .node id fun _ hbelow => by cases hbelow
  have hrun : (completion (e.evaluate env) (machine.given "p" (.long 2))).1 =
      .ok (.resolved (.value (.array [.long 2, .long 1]))) := rfl
  obtain ⟨hresult, -⟩ := completion_evaluate_inline env e "p" (.long 2) machine huntyped
  rw [hrun] at hresult
  refine ⟨huntyped, rfl, ?_⟩
  generalize (completion ((e.inline "p" (.long 2)).evaluate env) machine).1 = result at hresult ⊢
  cases hresult
  rfl

end Expr

end ObjectQuery
