import ObjectQuery.Proofs.Evaluation.Resolution
import ObjectQuery.Proofs.Method.Safety
import ObjectQuery.Proofs.Method.Slicing

/-!
Evaluations are safe: they find every operand that they take and leave none behind. Main statement:
an evaluation gives the operands back that were on the stack, a visit that ends pushes one operand
on them, no evaluation ends with an error of the machine, and no text is cut through a character.
-/

namespace ObjectQuery

variable {raised : EvalError → Prop}

open Eval

/-! ### Operators -/

namespace BinaryOperator

theorem logical_warranted {op : BinaryOperator} {operand : Operand} {error : EvalError}
    (h : op.logical operand = .error error) : error.Warranted := by
  cases operand with
  | unresolved => simp [logical] at h
  | value value =>
    cases value <;> simp [logical] at h
    all_goals
      subst h
      trivial

theorem conjunction_warranted (left right : Operand) (error : EvalError)
    (h : conjunction left right = .error error) : error.Warranted := by
  rw [conjunction] at h
  split at h
  · simp at h
  · cases hleft : logical .and left with
    | error found =>
      rw [hleft] at h
      obtain rfl := Except.error.inj h
      exact logical_warranted hleft
    | ok l =>
      cases hright : logical .and right with
      | error found =>
        rw [hleft, hright] at h
        obtain rfl := Except.error.inj h
        exact logical_warranted hright
      | ok r =>
        rw [hleft, hright] at h
        cases h

theorem isFlat_of_conjunction {left right result : Operand}
    (h : conjunction left right = .ok result) : result.isFlat := by
  rw [conjunction] at h
  split at h
  · obtain rfl := Except.ok.inj h
    rfl
  · cases hleft : logical .and left with
    | error found =>
      rw [hleft] at h
      cases h
    | ok l =>
      cases hright : logical .and right with
      | error found =>
        rw [hleft, hright] at h
        cases h
      | ok r =>
        rw [hleft, hright] at h
        obtain rfl := Except.ok.inj h
        rfl

theorem isFlat_disjunction (left right : Operand) : (disjunction left right).isFlat := by
  rw [disjunction]
  split
  · rfl
  · split <;> rfl

theorem isFlat_compareValues (op : BinaryOperator) (left right : Value) :
    (op.compareValues left right).isFlat := by
  cases op with
  | eq | ne => rfl
  | _ =>
    simp only [compareValues]
    split
    · rfl
    · split <;> rfl

theorem isFlat_comparison (op : BinaryOperator) (left right : Operand) :
    (op.comparison left right).isFlat := by
  cases left with
  | unresolved => rfl
  | value l =>
    cases right with
    | unresolved => rfl
    | value r => exact op.isFlat_compareValues l r

theorem likeness_quiet (left right : Operand) :
    Quiet (likeness left right) fun operand => operand.isFlat := by
  cases left with
  | unresolved => exact .pure rfl
  | value l =>
    cases right with
    | unresolved => cases l <;> exact .pure rfl
    | value r =>
      cases l with
      | null => exact .pure rfl
      | string text =>
        cases r with
        | string pattern => exact (matchesWhole_quiet pattern text).bind fun _ _ => .pure rfl
        | _ => exact .fail trivial
      | _ => exact .fail trivial

theorem compute_quiet (op : BinaryOperator) (arithmetic : Value.Arithmetic) (left right : Value) :
    Quiet (op.compute arithmetic left right) fun operand => operand.isFlat := by
  rw [compute]
  split
  · exact .pure rfl
  · split
    · exact .pure rfl
    · split
      · exact .fail trivial
      · split
        · exact .fail trivial
        · split
          · rename_i happly
            exact .pure (Value.isFlat_of_isNumeric (isNumeric_of_applyArithmetic happly))
          · exact .unresolved _ rfl

theorem apply_quiet (op : BinaryOperator) (left right : Operand) :
    Quiet (op.apply left right) fun operand => operand.isFlat := by
  cases op with
  | and => exact .ofExcept (fun _ => isFlat_of_conjunction) (conjunction_warranted left right)
  | or => exact .pure (isFlat_disjunction left right)
  | eq | ne | lt | le | gt | ge => exact .pure (isFlat_comparison _ left right)
  | like => exact likeness_quiet left right
  | add | sub | mul | div | mod =>
    cases left with
    | unresolved => exact .pure rfl
    | value l =>
      cases right with
      | unresolved => exact .pure rfl
      | value r => exact compute_quiet _ _ l r
  | is | isNot | cast => exact .fail trivial

end BinaryOperator

namespace UnaryOperator

theorem checkShape_warranted (op : UnaryOperator) (operand : Expr) (error : EvalError)
    (h : op.checkShape operand = .error error) : error.Warranted := by
  cases op <;> simp only [checkShape] at h
  all_goals
    try split at h
    all_goals
      cases h
      try trivial

theorem apply_warranted (op : UnaryOperator) (operand : Operand) (error : EvalError)
    (h : op.apply operand = .error error) : error.Warranted := by
  cases op with
  | not =>
    cases operand with
    | unresolved => simp [apply, opposite] at h
    | value value =>
      cases value <;> simp [apply, opposite] at h
      all_goals
        subst h
        trivial
  | neg =>
    cases operand with
    | unresolved => simp [apply, negate] at h
    | value value =>
      simp only [apply] at h
      rw [negate.eq_def] at h
      split at h
      · cases h
      · cases h
      · split at h <;> cases h
        trivial
  | com => simp [apply] at h
  | distinct =>
    obtain rfl := Except.error.inj h
    trivial

theorem isFlat_of_negate {operand result : Operand} (h : negate operand = .ok result) :
    result.isFlat := by
  rw [negate.eq_def] at h
  split at h
  · obtain rfl := Except.ok.inj h
    rfl
  · obtain rfl := Except.ok.inj h
    rfl
  · rename_i value _
    cases value <;> simp only [Value.negate?, Except.ok.injEq, reduceCtorEq] at h <;>
      subst h <;> rfl

theorem isFlat_of_opposite {operand result : Operand} (h : opposite operand = .ok result) :
    result.isFlat := by
  rw [opposite.eq_def] at h
  split at h
  · obtain rfl := Except.ok.inj h
    rfl
  · obtain rfl := Except.ok.inj h
    rfl
  · obtain rfl := Except.ok.inj h
    rfl
  · cases h

theorem isFlat_complement (operand : Operand) : (complement operand).isFlat := by
  cases operand with
  | unresolved => rfl
  | value value => cases value <;> rfl

theorem apply_quiet (op : UnaryOperator) (operand : Operand) :
    Quiet (Eval.ofExcept (op.apply operand)) fun operand => operand.isFlat := by
  refine .ofExcept (fun result h => ?_) (op.apply_warranted operand)
  cases op with
  | not => exact isFlat_of_opposite h
  | neg => exact isFlat_of_negate h
  | com =>
    obtain rfl := Except.ok.inj h
    exact isFlat_complement operand
  | distinct => cases h

end UnaryOperator

/-! ### Paths, types and calls -/

namespace Environment

variable {env : Environment}

/-- An error with which a method that the program has registered may end. -/
def Raises (env : Environment) (error : EvalError) : Prop :=
  (∃ name method, env.registry.function? name = some method ∧ method.Raises error) ∨
  ∃ type name method, env.registry.ownMethod? type name = some method ∧ method.Raises error

theorem every_raises (env : Environment) :
    env.registry.Every fun method => ∀ error, method.Raises error → env.Raises error where
  functions name method hmethod _ h := .inl ⟨name, method, hmethod, h⟩
  methods type name method hmethod _ h := .inr ⟨type, name, method, hmethod, h⟩

theorem member_safe (object : Object) (name : String) : Safe raised (env.member object name) := by
  rw [member]
  cases env.access.fieldIndex? object name with
  | some index => exact (Quiet.load _ object index).safe.bind fun _ => Safe.pure _
  | none => exact Safe.pure _

theorem navigate_safe (value : Value) (segments : List String) :
    Safe raised (env.navigate value segments) := by
  induction segments generalizing value with
  | nil => cases value <;> exact Safe.pure _
  | cons segment rest ih =>
    cases value with
    | null => exact Safe.pure _
    | object id typeName fields identity =>
      refine (member_safe ⟨id, typeName, fields, identity⟩ segment).bind fun found => ?_
      cases found with
      | some value => exact ih value
      | none => exact Safe.unresolved _
    | map entries =>
      rw [navigate]
      cases textEntry? entries segment with
      | some value => exact ih value
      | none => exact Safe.unresolved _
    | _ => exact Safe.unresolved _

theorem path_safe (segments : List String) : Safe raised (env.path segments) := by
  refine Safe.context.bind fun context => ?_
  rcases pathRoot context segments with ⟨root, rest⟩
  cases root with
  | none => exact Safe.unresolved _
  | some root => exact navigate_safe root rest

theorem pathFrom_safe (root : Operand) (segments : List String) :
    Safe raised (env.pathFrom root segments) := by
  cases root with
  | value value => exact navigate_safe value segments
  | unresolved => exact Safe.pure _

theorem typeOperand_warranted (op : BinaryOperator) (e : Expr) (error : EvalError)
    (h : env.typeOperand op e = .error error) : error.Warranted := by
  rw [typeOperand] at h
  split at h
  · obtain rfl := Except.error.inj h
    trivial
  · split at h
    · cases h
    · obtain rfl := Except.error.inj h
      trivial

theorem castTo_safe (target : String) (source : Operand) :
    Safe raised (env.castTo target source) := by
  cases source with
  | unresolved => exact Safe.pure _
  | value value =>
    rw [castTo]
    split
    · exact Safe.pure _
    · exact Safe.unresolved _

theorem callFunction_safe [h : env.registry.EvaluatesArguments] (call : Call)
    (hargs : ∀ argument ∈ call.args, argument.Safe env.Raises) :
    Safe env.Raises (env.callFunction call) := by
  rw [callFunction]
  cases hmethod : env.registry.function? call.name with
  | none => exact Safe.unresolved _
  | some method =>
    exact method.evaluate_safe (h.every.functions _ _ hmethod)
      (env.every_raises.functions _ _ hmethod) call .null hargs

theorem callMethod_safe [h : env.registry.EvaluatesArguments] (receiver : Value) (call : Call)
    (hargs : ∀ argument ∈ call.args, argument.Safe env.Raises) :
    Safe env.Raises (env.callMethod receiver call) := by
  simp only [callMethod]
  cases hmethod : env.methodFor? (env.receiverType? receiver call.declared) call.name with
  | none => exact Safe.unresolved _
  | some method =>
    simp only
    split
    · exact Safe.pure _
    · exact method.evaluate_safe (h.every.methodFor? hmethod)
        (env.every_raises.methodFor? hmethod) call receiver hargs

theorem create_safe (typeName : String) (args : List Value) :
    Safe raised (env.create typeName args) := by
  rw [create]
  cases env.catalog.resolve? typeName with
  | none => exact Ensures.fail trivial
  | some full =>
    simp only
    cases env.catalog.constructor? full args with
    | none => exact Ensures.fail trivial
    | some c => exact Safe.fresh.bind fun id => Safe.pure _

end Environment

/-! ### Aggregates -/

namespace AggregateKind

theorem requireNumeric_warranted {kind : AggregateKind} {values : List Value} {error : EvalError}
    (h : kind.requireNumeric values = .error error) : error.Warranted := by
  rw [requireNumeric] at h
  split at h
  · obtain rfl := Except.error.inj h
    trivial
  · cases h

theorem extreme_warranted {kind : AggregateKind} {wanted : Ordering} {values : List Value}
    {error : EvalError} (h : kind.extreme wanted values = .error error) : error.Warranted := by
  cases values with
  | nil => cases h
  | cons first rest =>
    rw [extreme] at h
    induction rest generalizing first with
    | nil => cases h
    | cons value rest ih =>
      rw [List.foldlM_cons] at h
      cases hbetter : kind.better wanted first value with
      | ok best =>
        rw [hbetter] at h
        exact ih best h
      | error found =>
        rw [hbetter] at h
        obtain rfl := Except.error.inj h
        rw [better] at hbetter
        split at hbetter
        · cases hbetter
        · obtain rfl := Except.error.inj hbetter
          trivial

theorem compute_numeric_warranted {kind : AggregateKind} {f : List Value → Value}
    {values : List Value} {error : EvalError}
    (h : (do
      if values.isEmpty then return .null
      kind.requireNumeric values
      return f values : Except EvalError Value) = .error error) : error.Warranted := by
  split at h
  · cases h
  · cases hrequire : kind.requireNumeric values with
    | ok _ =>
      rw [hrequire] at h
      cases h
    | error found =>
      rw [hrequire] at h
      obtain rfl := Except.error.inj h
      exact requireNumeric_warranted hrequire

theorem compute_warranted (kind : AggregateKind) (values : List Value) (error : EvalError)
    (h : kind.compute values = .error error) : error.Warranted := by
  cases kind with
  | count => cases h
  | sum | avg => exact compute_numeric_warranted h
  | min | max => exact extreme_warranted h

theorem collect_safe {argument : AggregateArgument} (h : Safe raised argument.operand)
    (members : List Value) : Safe raised (argument.collect members) := by
  induction members with
  | nil => exact Safe.pure _
  | cons member rest ih =>
    refine (Safe.modifyContext _).bind fun _ => h.bind fun operand => ?_
    cases operand with
    | value value => exact ih.bind fun _ => Safe.pure _
    | unresolved => exact ih

theorem evaluate_safe (kind : AggregateKind) {argument : AggregateArgument}
    (h : Safe raised argument.operand) : Safe raised (kind.evaluate argument) := by
  refine Safe.context.bind fun context => ?_
  cases context.resultSet with
  | none => exact Safe.unresolved _
  | some members =>
    refine (collect_safe h members).restoring.bind fun values => ?_
    exact (Safe.ofExcept (kind.compute_warranted _)).bind fun _ => Safe.pure _

end AggregateKind

/-! ### Operands on the stack -/

namespace Eval

variable {α : Type} {count more : Nat} {first second : Eval Unit}

/-- A step that pushes so many operands if it ends, and leaves the operands below if it halts. -/
def PushesSafely (raised : EvalError → Prop) (count : Nat) (step : Eval Unit) : Prop :=
  ∀ machine, match step machine with
    | .ok () after =>
      ∃ operands : List Operand,
        operands.length = count ∧ after.stack = operands.reverse ++ machine.stack
    | .error halt after => machine.stack <:+ after.stack ∧ halt.Warranted raised

namespace PushesSafely

theorem none : PushesSafely raised 0 (pure ()) := fun _ => ⟨[], rfl, rfl⟩

theorem visit {operand : Eval Operand} (h : Safe raised operand) :
    PushesSafely raised 1 (do Eval.push (← operand)) := by
  intro machine
  have hoperand := h machine
  simp only [Bind.bind, EStateM.bind]
  cases hrun : operand machine with
  | ok value after =>
    simp only [hrun] at hoperand
    exact ⟨[value], rfl, congrArg (value :: ·) hoperand.1⟩
  | error halt after =>
    rw [hrun] at hoperand
    exact hoperand

theorem append (h : PushesSafely raised count first) (hnext : PushesSafely raised more second) :
    PushesSafely raised (count + more) (do first; second) := by
  intro machine
  have hfirst := h machine
  simp only [Bind.bind, EStateM.bind]
  cases hrun : first machine with
  | ok _ middle =>
    simp only [hrun] at hfirst
    obtain ⟨operands, hlength, hstack⟩ := hfirst
    have hsecond := hnext middle
    simp only
    cases hrest : second middle with
    | ok _ after =>
      simp only [hrest] at hsecond
      obtain ⟨others, hothers, hafter⟩ := hsecond
      exact ⟨operands ++ others, by simp [hlength, hothers], by simp [hafter, hstack]⟩
    | error halt after =>
      rw [hrest] at hsecond
      exact ⟨.trans ⟨operands.reverse, hstack.symm⟩ hsecond.1, hsecond.2⟩
  | error halt after =>
    rw [hrun] at hfirst
    exact hfirst

theorem take (h : PushesSafely raised count first) {taking : Eval α}
    {next : List Operand → Eval α}
    (htaking : ∀ operands : List Operand, operands.length = count → ∀ c stack trace supply,
      taking ⟨c, operands.reverse ++ stack, trace, supply⟩ =
        next operands ⟨c, stack, trace, supply⟩)
    (hnext : ∀ operands : List Operand, operands.length = count → Safe raised (next operands)) :
    Safe raised (first >>= fun _ => taking) := by
  intro machine
  have hfirst := h machine
  simp only [Bind.bind, EStateM.bind]
  cases hrun : first machine with
  | ok _ after =>
    simp only [hrun] at hfirst
    obtain ⟨context, stack, trace, supply⟩ := after
    obtain ⟨operands, hlength, rfl⟩ := hfirst
    have hrest := hnext operands hlength ⟨context, machine.stack, trace, supply⟩
    rw [← htaking operands hlength] at hrest
    exact hrest
  | error halt after =>
    rw [hrun] at hfirst
    exact hfirst

theorem visitAll {args : List Argument} (h : ∀ argument ∈ args, argument.Safe raised) :
    PushesSafely raised args.length (args.forM Argument.visit) := by
  induction args with
  | nil => exact none
  | cons argument rest ih =>
    obtain ⟨operand, hvisit, hoperand⟩ := h argument (by simp)
    have hcons : (argument :: rest).forM Argument.visit =
        (argument.visit >>= fun _ => rest.forM Argument.visit) := rfl
    rw [hcons, List.length_cons, Nat.add_comm, hvisit]
    exact (visit hoperand).append (ih fun argument hargument => h argument (by simp [hargument]))

end PushesSafely

theorem Safe.bothOperands {left right : Eval Operand} (hleft : Safe raised left)
    (hright : Safe raised right) {next : Operand → Operand → Eval α}
    (hnext : ∀ l r, Safe raised (next l r)) :
    Safe raised (do
      Eval.push (← left)
      Eval.push (← right)
      let r ← Eval.pop
      let l ← Eval.pop
      next l r) := by
  have hwith (operands : List Operand) (hlength : operands.length = 2) :
      Safe raised (Agreement.withBoth next operands) := by
    obtain ⟨l, r, rfl⟩ := List.length_eq_two.mp hlength
    exact hnext l r
  have hboth := ((PushesSafely.visit hleft).append (.visit hright)).take
    (Agreement.takingBoth_append next) hwith
  simpa only [bind_assoc, Agreement.takingBoth] using hboth

theorem Safe.allOperands {args : List Argument} (h : ∀ argument ∈ args, argument.Safe raised)
    {next : List Operand → Eval α} (hnext : ∀ operands, Safe raised (next operands)) :
    Safe raised (do
      args.forM Argument.visit
      next (← Eval.popMany args.length)) := by
  refine (PushesSafely.visitAll h).take (fun operands hlength c stack trace supply => ?_)
    fun operands _ => hnext operands
  simp only [← hlength, Bind.bind, EStateM.bind, Agreement.popMany_append]

end Eval

/-! ### Expressions -/

namespace Expr

variable {env : Environment}

/-- An expression whose result is found by a safe step, wherever it stands. -/
def Safe (env : Environment) (e : Expr) : Prop :=
  ∀ position, Eval.Safe env.Raises (e.result env position)

theorem Safe.operandOf {e : Expr} (h : e.Safe env) (position : Position) :
    Eval.Safe env.Raises (operandOf (e.result env position)) := by
  rw [operandOf_eq]
  exact h position

theorem arguments_safe {es : List Expr} (h : ∀ e ∈ es, e.Safe env) :
    ∀ argument ∈ arguments env es, argument.Safe env.Raises := by
  induction es with
  | nil => simp [arguments]
  | cons e rest ih =>
    intro argument hargument
    rcases List.mem_cons.mp hargument with rfl | hargument
    · exact ⟨_, rfl, h e (by simp) .operand⟩
    · exact ih (fun e he => h e (by simp [he])) argument hargument

theorem elementValues_safe {es : List Expr} (h : ∀ e ∈ es, e.Safe env) :
    Eval.Safe env.Raises (elementValues env es) := by
  induction es with
  | nil => exact Safe.pure _
  | cons e rest ih =>
    rw [elementValues]
    split
    · refine ((h e (by simp)).operandOf .operand).bind fun operand => ?_
      cases operand with
      | unresolved => exact Safe.pure _
      | value value => exact (ih fun e he => h e (by simp [he])).bind fun _ => Safe.pure _
    · exact (Safe.warn _).bind fun _ => Safe.pure _

theorem decideBranch_safe (condition : Operand) {value otherwise : Eval Operand}
    (hvalue : Eval.Safe raised value) (hotherwise : Eval.Safe raised otherwise) :
    Eval.Safe raised (decideBranch condition value otherwise) := by
  rw [decideBranch.eq_def]
  split
  · exact hvalue
  · exact hotherwise
  · exact Safe.unresolved _

theorem firstBranch_safe {branches : List (Expr × Expr)} {otherwise : Eval Operand}
    (h : ∀ branch ∈ branches, branch.1.Safe env ∧ branch.2.Safe env)
    (hotherwise : Eval.Safe env.Raises otherwise) :
    Eval.Safe env.Raises (firstBranch env branches otherwise) := by
  induction branches with
  | nil => exact hotherwise
  | cons branch rest ih =>
    obtain ⟨hcondition, hvalue⟩ := h branch (by simp)
    refine (hcondition.operandOf .operand).bind fun condition => ?_
    exact decideBranch_safe condition (hvalue.operandOf .operand)
      (ih fun branch hbranch => h branch (by simp [hbranch]))

theorem otherwiseOf_safe {otherwise : Option Expr} (h : ∀ e ∈ otherwise, e.Safe env) :
    Eval.Safe env.Raises (otherwiseOf env otherwise) := by
  cases otherwise with
  | none => exact Safe.pure _
  | some e => exact (h e rfl).operandOf .operand

theorem binary_safe {op : BinaryOperator} {left right : Expr} (hleft : left.Safe env)
    (hright : right.Safe env) : (binary op left right).Safe env := by
  intro position
  have htarget : Eval.Safe env.Raises (Eval.ofExcept (env.typeOperand op right)) :=
    Safe.ofExcept (Environment.typeOperand_warranted op right)
  have happly (l r : Operand) : Eval.Safe env.Raises (op.apply l r) := (op.apply_quiet l r).safe
  cases op with
  | cast =>
    rw [result]
    split
    · refine (hleft .root).bind fun source => ?_
      exact htarget.bind fun target => Environment.castTo_safe target source
    · exact Ensures.fail trivial
  | is | isNot =>
    refine (hleft.operandOf .operand).bind fun operand => ?_
    exact htarget.bind fun target => Safe.pure _
  | _ => exact Safe.bothOperands (hleft .operand) (hright .operand) happly

theorem unary_safe {op : UnaryOperator} {operand : Expr} (h : operand.Safe env) :
    (unary op operand).Safe env := by
  intro position
  rw [result]
  split
  · exact h .operand
  · refine (Safe.ofExcept (op.checkShape_warranted operand)).bind fun _ => ?_
    exact (h.operandOf .operand).bind fun value => (op.apply_quiet value).safe

theorem invoke_safe [env.registry.EvaluatesArguments] {receiver : Option Expr} {method : String}
    {args : List Expr} {declared : Option String} (hreceiver : ∀ e ∈ receiver, e.Safe env)
    (hargs : ∀ e ∈ args, e.Safe env) : (invoke receiver method args declared).Safe env := by
  intro position
  have hpass := arguments_safe hargs
  cases receiver with
  | none =>
    have hcall : Eval.Safe env.Raises
        (env.callFunction ⟨none, method, arguments env args, declared⟩) :=
      Environment.callFunction_safe _ hpass
    rw [result]
    cases AggregateKind.ofName? method with
    | none => exact hcall
    | some kind =>
      cases hargument : aggregated? env args with
      | none => exact hcall
      | some argument =>
        refine kind.evaluate_safe ?_
        -- An aggregate takes one argument.
        rw [aggregated?.eq_def] at hargument
        split at hargument
        · obtain rfl := Option.some.inj hargument
          exact (hargs _ (by simp)).operandOf .aggregated
        · cases hargument
  | some e =>
    refine ((hreceiver e rfl).operandOf .operand).bind fun operand => ?_
    cases operand with
    | unresolved => exact Safe.pure _
    | value receiver => exact Environment.callMethod_safe receiver _ hpass

theorem variableOperand_safe (position : Position) (name : String) :
    Eval.Safe raised (variableOperand position name) := by
  refine Safe.context.bind fun context => ?_
  cases context.binding? name with
  | some value => exact Safe.pure _
  | none =>
    simp only
    split
    · exact Safe.unresolved _
    · exact Ensures.stopOn name none

theorem creator_safe {typeName : String} {args : List Expr} (h : ∀ e ∈ args, e.Safe env) :
    (creator typeName args).Safe env := by
  intro position
  refine Safe.allOperands (arguments_safe h) fun operands => ?_
  cases Environment.allValues operands with
  | none => exact Safe.pure _
  | some values => exact Environment.create_safe typeName values

theorem result_safe (env : Environment) [env.registry.EvaluatesArguments] (e : Expr) :
    e.Safe env := by
  induction e using induction_children with
  | step e ih =>
    cases e with
    | literal value => exact fun _ => Safe.pure _
    | parameter name => exact fun _ => Safe.context.bind fun _ => Safe.pure _
    | var name => exact fun position => variableOperand_safe position name
    | path qualifier segments =>
      cases qualifier with
      | none => exact fun _ => Environment.path_safe segments
      | some qualifier =>
        exact fun _ => (ih qualifier (by simp [children]) .root).bind fun root =>
          Environment.pathFrom_safe root segments
    | binary op left right =>
      exact binary_safe (ih left (by simp [children])) (ih right (by simp [children]))
    | unary op operand => exact unary_safe (ih operand (by simp [children]))
    | invoke receiver method args declared =>
      refine invoke_safe (fun e he => ih e ?_) fun e he => ih e ?_
      all_goals simp_all [children]
    | creator typeName args => exact creator_safe ih
    | conditional branches otherwise =>
      intro position
      refine firstBranch_safe (fun branch hbranch => ⟨ih branch.1 ?_, ih branch.2 ?_⟩)
        (otherwiseOf_safe fun e he => ih e ?_)
      · exact List.mem_append_left _ (List.mem_flatMap.mpr ⟨branch, hbranch, by simp⟩)
      · exact List.mem_append_left _ (List.mem_flatMap.mpr ⟨branch, hbranch, by simp⟩)
      · exact List.mem_append_right _ (by simpa using he)
    | array elements =>
      intro position
      refine (elementValues_safe ih).bind fun values => ?_
      cases values <;> exact Safe.pure _

theorem visit_stack [env.registry.EvaluatesArguments] {e : Expr} {machine after : Machine}
    (h : e.visit env machine = .ok () after) :
    ∃ operand, after.stack = operand :: machine.stack := by
  have hpushes := PushesSafely.visit (e.result_safe env .operand) machine
  rw [← visit, h] at hpushes
  obtain ⟨operands, hlength, hstack⟩ := hpushes
  obtain ⟨operand, rfl⟩ := List.length_eq_one_iff.mp hlength
  exact ⟨operand, hstack⟩

/-- Whatever an evaluation comes to, it leaves the operands that it found, and a visit that ends
adds one to them. What would stop a machine never happens: an operand is neither missing nor left
over, an argument is there if the number of arguments is admitted, and texts are cut between
characters. -/
theorem stack_disciplined (env : Environment) [env.registry.EvaluatesArguments] (e : Expr)
    (machine : Machine) :
    (completion (e.evaluate env) machine).2.stack = machine.stack ∧
    (∀ after, e.visit env machine = .ok () after →
      ∃ operand, after.stack = operand :: machine.stack) ∧
    (∀ error after, e.evaluate env machine = .error error after →
      error.Warranted ∨ env.Raises error) ∧
    (∀ (method : TextMethod) (s : String) (start stop : Int),
      method.byteSlice? s start stop = some (method.slice s.toList start stop)) ∧
    ∀ (s needle : String) (start : Int),
      byteIndexFrom? s needle start = some (indexFrom? s.toList needle.toList start) := by
  obtain ⟨hstack, herror⟩ := (e.result_safe env .operand).resolve machine
  refine ⟨hstack, fun after => visit_stack, fun error after h => herror error ?_,
    TextMethod.byteSlice?_eq, byteIndexFrom?_eq⟩
  rw [evaluate] at h
  rw [completion, ← visit, h]

/-- An environment in which texts have one method, which a program has registered. -/
def texting (method : CustomMethod) : Environment :=
  ⟨.empty, Registry.empty.register (some "String") "of" (.custom method), .detached⟩

/-- A call of that method whose argument is a sum. -/
def ofSum (e : Expr) : Expr :=
  callMethod (literal (.string "a")) "of" [binary .add (literal (.int 1)) e]

/-- A sum that stops at its second part has left the first one on the stack, and the evaluation of
the call takes it away. -/
theorem stack_disciplined_ofSum :
    let env := texting (.tuple .null)
    let machine : Machine := { (default : Machine) with stack := [.value (.int 7)] }
    env.registry.EvaluatesArguments ∧
    (∃ missing after, (ofSum (var "v")).visit env machine = .error (.unbound missing) after ∧
      after.stack = [.value (.int 1), .value (.int 7)] ∧
      (completion ((ofSum (var "v")).evaluate env) machine).2.stack = machine.stack) ∧
    (∃ after, (ofSum (literal (.int 2))).visit env machine = .ok () after ∧
      ∃ operand, after.stack = operand :: machine.stack) ∧
    ∃ error after, (ofSum (literal (.boolean true))).evaluate env machine = .error error after ∧
      (error.Warranted ∨ env.Raises error) := by
  intro env machine
  have hregistry : env.registry.EvaluatesArguments :=
    .register (some "String") "of" (CustomMethod.tuple_evaluatesArguments .null)
  have hstops : ∃ missing after,
      (ofSum (var "v")).visit (texting (.tuple .null)) machine = .error (.unbound missing) after ∧
        after.stack = [.value (.int 1), .value (.int 7)] := ⟨_, _, rfl, rfl⟩
  have hends : ∃ after,
      (ofSum (literal (.int 2))).visit (texting (.tuple .null)) machine = .ok () after := ⟨_, rfl⟩
  have hfails : ∃ error after, (ofSum (literal (.boolean true))).evaluate (texting (.tuple .null))
      machine = .error error after := ⟨_, _, rfl⟩
  obtain ⟨missing, stopped, hstops, hleft⟩ := hstops
  obtain ⟨after, hends⟩ := hends
  obtain ⟨error, failed, hfails⟩ := hfails
  refine ⟨hregistry, ⟨missing, stopped, hstops, hleft, ?_⟩, ⟨after, hends, ?_⟩,
    error, failed, hfails, ?_⟩
  · exact (stack_disciplined env (ofSum (var "v")) machine).1
  · exact (stack_disciplined env (ofSum (literal (.int 2))) machine).2.1 after hends
  · exact (stack_disciplined env (ofSum (literal (.boolean true))) machine).2.2.1 _ _ hfails

/-- A method that takes every halt of its argument for null, and leaves what the argument has pushed
before. -/
def forgiving : CustomMethod where
  evaluate call _ := do
    match call.args with
    | [] => return .value .null
    | argument :: _ => tryCatch argument.operand fun _ => return .value .null
  nullDefault := .null

/-- A method that does more than to have its arguments evaluated can leave operands over. -/
theorem stackImbalance_of_forgiving :
    ¬ (texting forgiving).registry.EvaluatesArguments ∧
      (ofSum (var "v")).evaluate (texting forgiving) default =
        .error (.stackImbalance 2) default := by
  refine ⟨fun hregistry => ?_, rfl⟩
  have hvisit : ∃ after, (ofSum (var "v")).visit (texting forgiving) default = .ok () after ∧
      after.depth = 2 := ⟨_, rfl, rfl⟩
  obtain ⟨after, hafter, hdepth⟩ := hvisit
  obtain ⟨operand, hstack⟩ := visit_stack hafter
  rw [Machine.depth, hstack] at hdepth
  cases hdepth

end Expr

end ObjectQuery
