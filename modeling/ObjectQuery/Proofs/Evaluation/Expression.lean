import Mathlib.Data.List.Basic
import ObjectQuery.Proofs.Evaluation.Aggregate
import ObjectQuery.Proofs.Expr.Tree

/-!
Evaluations agree in corresponding contexts. In particular an evaluation is a function of its
context and its supply: it finds no operand below its own, leaves the context as it was, and stops
on no variable but one of the expression that has no value.
-/

namespace ObjectQuery

variable {A : Agreement} {context context' middle last : Context}

open Agreement

/-! ### Operands pushed one after another -/

/-- The computation comes to an outcome whose operands it pushes, the first one lowest. -/
def Pushes (run : Eval Unit) (context : Context) (supply : InstanceId)
    (outcome : Outcome Halt (List Operand)) : Prop :=
  ∃ leftover, ∀ stack trace, run ⟨context, stack, trace, supply⟩ =
    match outcome.result with
    | .ok operands => .ok ()
      ⟨outcome.context, operands.reverse ++ stack, trace ++ outcome.trace, outcome.supply⟩
    | .error e =>
      .error e ⟨outcome.context, leftover ++ stack, trace ++ outcome.trace, outcome.supply⟩

namespace Pushes

variable {α : Type} {first second : Eval Unit} {supply supply' supply'' : InstanceId}
  {trace trace' : Trace} {operands : List Operand}

theorem none : Pushes (pure ()) context supply ⟨.ok [], context, .empty, supply⟩ :=
  ⟨[], fun _ _ => by rw [Trace.append_empty]; rfl⟩

theorem visit {operand : Eval Operand} {result : Except Halt Operand}
    (h : Settles operand context supply ⟨result, last, trace, supply'⟩) :
    Pushes (do Eval.push (← operand)) context supply
      ⟨result.map fun value => [value], last, trace, supply'⟩ := by
  obtain ⟨leftover, h⟩ := h
  refine ⟨leftover, fun stack before => ?_⟩
  simp only [Bind.bind, EStateM.bind, h]
  cases result <;> rfl

theorem append {result : Except Halt (List Operand)}
    (h : Pushes first context supply ⟨.ok operands, middle, trace, supply'⟩)
    (hnext : Pushes second middle supply' ⟨result, last, trace', supply''⟩) :
    Pushes (do first; second) context supply
      ⟨result.map (operands ++ ·), last, trace ++ trace', supply''⟩ := by
  obtain ⟨_, h⟩ := h
  obtain ⟨leftover, hnext⟩ := hnext
  refine ⟨leftover ++ operands.reverse, fun stack before => ?_⟩
  simp only [Bind.bind, EStateM.bind, h, hnext]
  cases result <;> simp [Except.map, Trace.append_assoc]

theorem error {halt : Halt}
    (h : Pushes first context supply ⟨.error halt, middle, trace, supply'⟩) :
    Pushes (do first; second) context supply ⟨.error halt, middle, trace, supply'⟩ := by
  obtain ⟨leftover, h⟩ := h
  refine ⟨leftover, fun stack before => ?_⟩
  simp only [Bind.bind, EStateM.bind, h]

theorem take {taking next : Eval α} {result : Except Halt α}
    (h : Pushes first context supply ⟨.ok operands, middle, trace, supply'⟩)
    (htaking : ∀ stack before, taking ⟨middle, operands.reverse ++ stack, before, supply'⟩ =
      next ⟨middle, stack, before, supply'⟩)
    (hnext : Settles next middle supply' ⟨result, last, trace', supply''⟩) :
    Settles (first >>= fun _ => taking) context supply
      ⟨result, last, trace ++ trace', supply''⟩ := by
  obtain ⟨_, h⟩ := h
  obtain ⟨leftover, hnext⟩ := hnext
  refine ⟨leftover, fun stack before => ?_⟩
  simp only [Bind.bind, EStateM.bind, h, htaking, hnext, Trace.append_assoc]

theorem take_error {taking : Eval α} {halt : Halt}
    (h : Pushes first context supply ⟨.error halt, middle, trace, supply'⟩) :
    Settles (first >>= fun _ => taking) context supply
      ⟨.error halt, middle, trace, supply'⟩ := by
  obtain ⟨leftover, h⟩ := h
  refine ⟨leftover, fun stack before => ?_⟩
  simp only [Bind.bind, EStateM.bind, h]

end Pushes

namespace Agreement

/-- Steps that push corresponding operands, so many of them unless they stop. -/
def Pushing (A : Agreement) (context context' : Context) (count : Nat) (step : Eval Unit) : Prop :=
  ∀ supply supply', ∃ result trace made,
    Pushes step context supply ⟨result, context, trace, supply.advance made⟩ ∧
    (A.SuppliesNext made supply supply' →
      Pushes step context' supply'
        ⟨A.image (List.map (.rename A.rename)) result, context', trace, supply'.advance made⟩) ∧
    A.Stops context result ∧ ∀ operands, result = .ok operands → operands.length = count

namespace Pushing

variable {α β : Type} {step next : Eval Unit} {count count' : Nat} {f : α → β}

theorem none : A.Pushing context context' 0 (pure ()) := by
  intro supply supply'
  exact ⟨.ok [], .empty, 0, .none, fun _ => .none, by simp [Stops], by simp⟩

theorem visit {operand : Eval Operand}
    (h : A.Mirrors context context' (Operand.rename A.rename) operand operand) :
    A.Pushing context context' 1 (do Eval.push (← operand)) := by
  intro supply supply'
  obtain ⟨result, trace, made, hfirst, hsecond, hstops⟩ := h supply supply'
  refine ⟨_, trace, made, .visit hfirst, fun hs => ?_, ?_, ?_⟩
  · have hvisit := Pushes.visit (hsecond hs)
    cases result <;> exact hvisit
  · cases result with
    | ok operand => simp [Stops, Except.map]
    | error halt =>
      intro missing hmissing
      exact hstops missing (by simpa [Except.map] using hmissing)
  · cases result with
    | ok operand => rintro operands ⟨⟩; rfl
    | error halt => rintro operands ⟨⟩

theorem append (h : A.Pushing context context' count step)
    (hnext : A.Pushing context context' count' next) :
    A.Pushing context context' (count + count') (do step; next) := by
  intro supply supply'
  obtain ⟨result, trace, made, hfirst, hsecond, hstops, hlength⟩ := h supply supply'
  cases result with
  | error halt =>
    exact ⟨.error halt, trace, made, hfirst.error, fun hs => (hsecond hs).error, hstops, by simp⟩
  | ok operands =>
    obtain ⟨result, trace', more, hnext, hnext', hstops, hlength'⟩ :=
      hnext (supply.advance made) (supply'.advance made)
    rw [InstanceId.advance_advance] at hnext hnext'
    refine ⟨_, _, made + more, hfirst.append hnext, fun hs => ?_, ?_, ?_⟩
    · have happend := (hsecond hs.first).append (hnext' hs.rest)
      cases result with
      | ok rest => simpa [image, Except.map] using happend
      | error halt => exact happend
    · cases result with
      | ok rest => simp [Stops, Except.map]
      | error halt =>
        intro missing hmissing
        exact hstops missing (by simpa [Except.map] using hmissing)
    · cases result with
      | ok rest =>
        rintro all ⟨⟩
        simp [hlength operands rfl, hlength' rest rfl]
      | error halt => rintro all ⟨⟩

theorem take (h : A.Pushing context context' count step) {taking : Eval α} {taking' : Eval β}
    {next : List Operand → Eval α} {next' : List Operand → Eval β}
    (htaking : ∀ operands : List Operand, operands.length = count → ∀ c stack trace supply,
      taking ⟨c, operands.reverse ++ stack, trace, supply⟩ =
        next operands ⟨c, stack, trace, supply⟩)
    (htaking' : ∀ operands : List Operand, operands.length = count → ∀ c stack trace supply,
      taking' ⟨c, operands.reverse ++ stack, trace, supply⟩ =
        next' operands ⟨c, stack, trace, supply⟩)
    (hnext : ∀ operands : List Operand, operands.length = count →
      A.Mirrors context context' f (next operands)
        (next' (operands.map (Operand.rename A.rename)))) :
    A.Mirrors context context' f (step >>= fun _ => taking) (step >>= fun _ => taking') := by
  intro supply supply'
  obtain ⟨result, trace, made, hfirst, hsecond, hstops, hlength⟩ := h supply supply'
  cases result with
  | error halt =>
    refine ⟨.error halt, trace, made, hfirst.take_error, fun hs => (hsecond hs).take_error, ?_⟩
    intro missing hmissing
    exact hstops missing (by simpa using hmissing)
  | ok operands =>
    have hcount := hlength operands rfl
    obtain ⟨result, trace', more, hrest, hrest', hstops⟩ :=
      hnext operands hcount (supply.advance made) (supply'.advance made)
    rw [InstanceId.advance_advance] at hrest hrest'
    have hcount' : (operands.map (Operand.rename A.rename)).length = count := by simpa using hcount
    exact ⟨result, _, made + more,
      hfirst.take (fun _ _ => htaking operands hcount _ _ _ _) hrest,
      fun hs => (hsecond hs.first).take (fun _ _ => htaking' _ hcount' _ _ _ _) (hrest' hs.rest),
      hstops⟩

end Pushing

/-- Goes on with two operands from the stack. -/
def takingBoth {α : Type} (next : Operand → Operand → Eval α) : Eval α := do
  let r ← Eval.pop
  let l ← Eval.pop
  next l r

/-- Goes on with the operands of a list of two. -/
def withBoth {α : Type} (next : Operand → Operand → Eval α) : List Operand → Eval α
  | [l, r] => next l r
  | _ => Eval.fail .stackUnderflow

theorem takingBoth_append {α : Type} (next : Operand → Operand → Eval α)
    (operands : List Operand) (hlength : operands.length = 2) (c : Context)
    (stack : List Operand) (trace : Trace) (supply : InstanceId) :
    takingBoth next ⟨c, operands.reverse ++ stack, trace, supply⟩ =
      withBoth next operands ⟨c, stack, trace, supply⟩ := by
  obtain ⟨l, r, rfl⟩ := List.length_eq_two.mp hlength
  rfl

theorem Mirrors.bothOperands {α : Type} {f : α → α} {left right : Eval Operand}
    (hleft : A.Mirrors context context' (Operand.rename A.rename) left left)
    (hright : A.Mirrors context context' (Operand.rename A.rename) right right)
    {next : Operand → Operand → Eval α}
    (hnext : ∀ l r, A.Mirrors context context' f (next l r)
      (next (l.rename A.rename) (r.rename A.rename))) :
    A.Mirrors context context' f
      (do
        Eval.push (← left)
        Eval.push (← right)
        let r ← Eval.pop
        let l ← Eval.pop
        next l r)
      (do
        Eval.push (← left)
        Eval.push (← right)
        let r ← Eval.pop
        let l ← Eval.pop
        next l r) := by
  have hboth := (Pushing.append (.visit hleft) (.visit hright)).take (f := f)
    (takingBoth_append next) (takingBoth_append next) ?_
  · simpa only [bind_assoc, takingBoth] using hboth
  · intro operands hlength
    obtain ⟨l, r, rfl⟩ := List.length_eq_two.mp hlength
    exact hnext l r

theorem Pushing.visitAll {args : List Argument}
    (h : ∀ argument ∈ args, A.Passes context context' argument) :
    A.Pushing context context' args.length (args.forM Argument.visit) := by
  induction args with
  | nil => exact .none
  | cons argument rest ih =>
    obtain ⟨operand, hvisit, hoperand⟩ := (h argument (by simp)).visit
    have hcons : (argument :: rest).forM Argument.visit =
        (argument.visit >>= fun _ => rest.forM Argument.visit) := rfl
    rw [hcons, List.length_cons, Nat.add_comm, hvisit]
    exact (Pushing.visit hoperand).append
      (ih fun argument hargument => h argument (by simp [hargument]))

theorem popMany_append (operands stack : List Operand) (c : Context) (trace : Trace)
    (supply : InstanceId) :
    Eval.popMany operands.length ⟨c, operands.reverse ++ stack, trace, supply⟩ =
      .ok operands ⟨c, stack, trace, supply⟩ := by
  have hdepth : operands.length ≤
      (Machine.mk c (operands.reverse ++ stack) trace supply).depth := by
    simp [Machine.depth]
  have htake : ((operands.reverse ++ stack).take operands.length).reverse = operands := by
    simp
  have hdrop : (operands.reverse ++ stack).drop operands.length = stack := by
    simp
  rw [popMany_apply, if_pos hdepth]
  simp only [htake, hdrop]

theorem Mirrors.allOperands {α : Type} {f : α → α} {args : List Argument}
    (h : ∀ argument ∈ args, A.Passes context context' argument)
    {next : List Operand → Eval α}
    (hnext : ∀ operands, A.Mirrors context context' f (next operands)
      (next (operands.map (.rename A.rename)))) :
    A.Mirrors context context' f
      (do
        args.forM Argument.visit
        next (← Eval.popMany args.length))
      (do
        args.forM Argument.visit
        next (← Eval.popMany args.length)) := by
  have htaking : ∀ operands : List Operand, operands.length = args.length →
      ∀ c stack trace supply,
        (Eval.popMany args.length >>= next) ⟨c, operands.reverse ++ stack, trace, supply⟩ =
          next operands ⟨c, stack, trace, supply⟩ := by
    intro operands hlength c stack trace supply
    simp only [Bind.bind, EStateM.bind]
    rw [← hlength, popMany_append]
  exact (Pushing.visitAll h).take htaking htaking fun operands _ => hnext operands

/-! ### Trees -/

/-- What makes an expression, its parts apart, agree with itself. -/
def Admits (A : Agreement) : Expr → Prop
  | .literal value => value.rename A.rename = value
  | .var name => A.names name
  | .invoke none method _ _ => (AggregateKind.ofName? method).isSome → A.aggregates
  | _ => True

theorem admits_of_rename_eq {e : Expr}
    (h : e.All fun node => ∀ value, node = .literal value → value.rename A.rename = value)
    (hvariables : ∀ name ∈ Cursor.variableNames e, A.names name) (haggregates : A.aggregates) :
    e.All A.Admits := by
  refine (h.and e.all_variableNames).imp fun node hnode => ?_
  cases node with
  | literal value => exact hnode.1 value rfl
  | var name => exact hvariables name (hnode.2 name rfl)
  | invoke receiver method args declared => cases receiver <;> simp [Admits, haggregates]
  | _ => trivial

theorem contexts_self
    (hparameters : ∀ name, (context.parameter name).rename A.rename = context.parameter name)
    (hstate : ∀ name, ∀ value ∈ context.state.get? name, value.rename A.rename = value)
    (hassignment : ∀ name, ∀ value ∈ context.assignment.get? name, value.rename A.rename = value)
    (hresultSet : ∀ members ∈ context.resultSet, ∀ member ∈ members,
      member.rename A.rename = member) :
    A.Contexts context context := by
  have hoption {found : Option Value} (hfound : ∀ value ∈ found, value.rename A.rename = value) :
      found = found.map (.rename A.rename) := by
    cases found with
    | none => rfl
    | some value => rw [Option.map_some, hfound value rfl]
  refine ⟨rfl, fun name => (hparameters name).symm, fun name => hoption (hstate name),
    fun name _ => ?_, fun _ => ?_⟩
  · rw [Context.binding?, Option.map_or, ← hoption (hstate name), ← hoption (hassignment name)]
  · cases hmembers : context.resultSet with
    | none => rfl
    | some members =>
      have hmap : members.map (.rename A.rename) = members.map id :=
        List.map_congr_left (hresultSet members hmembers)
      rw [Option.map_some, hmap, List.map_id]

end Agreement

namespace Expr

/-- The expression agrees with itself where it stands, whatever the context. -/
def Agrees (A : Agreement) (env : Environment) (e : Expr) : Prop :=
  ∀ position context context', A.Contexts context context' →
    A.Mirrors context context' (Operand.rename A.rename) (e.result env position)
      (e.result env position)

variable {env : Environment}

theorem Agrees.operandOf {e : Expr} (h : e.Agrees A env) (position : Position)
    (hc : A.Contexts context context') :
    A.Mirrors context context' (Operand.rename A.rename) (operandOf (e.result env position))
      (operandOf (e.result env position)) := by
  rw [operandOf_eq]
  exact h position context context' hc

theorem variableOperand_mirrors (position : Position) {name : String} (hname : A.names name)
    (hc : A.Contexts context context') :
    A.Mirrors context context' (Operand.rename A.rename) (variableOperand position name)
      (variableOperand position name) := by
  refine Mirrors.readContext ?_
  rw [hc.binding name hname]
  cases hbinding : context.binding? name with
  | some value => exact Mirrors.pure rfl
  | none =>
    simp only [Option.map_none]
    split
    · exact Mirrors.unresolved _
    · exact Mirrors.stopOn none hname hbinding

theorem arguments_pass {es : List Expr} (h : ∀ e ∈ es, e.Agrees A env)
    (hadmits : ∀ e ∈ es, A.Admits e) (hc : A.Contexts context context') :
    ∀ argument ∈ arguments env es, A.Passes context context' argument := by
  induction es with
  | nil => simp [arguments]
  | cons e rest ih =>
    intro argument hargument
    rcases List.mem_cons.mp hargument with rfl | hargument
    · constructor
      · intro name hname
        have hadmit := hadmits e (by simp)
        cases e <;> simp_all [variableName?, Admits]
      · exact ⟨_, rfl, h e (by simp) .operand context context' hc⟩
    · exact ih (fun e he => h e (by simp [he])) (fun e he => hadmits e (by simp [he])) argument
        hargument

theorem elementValues_mirrors {es : List Expr} (h : ∀ e ∈ es, e.Agrees A env)
    (hc : A.Contexts context context') :
    A.Mirrors context context' (Option.map (List.map (.rename A.rename))) (elementValues env es)
      (elementValues env es) := by
  induction es with
  | nil => exact Mirrors.pure rfl
  | cons e rest ih =>
    rw [elementValues]
    split
    · refine ((h e (by simp)).operandOf .operand hc).bind fun operand => ?_
      cases operand with
      | unresolved => exact Mirrors.pure rfl
      | value value =>
        refine (ih fun e he => h e (by simp [he])).bind fun values => ?_
        cases values <;> exact Mirrors.pure rfl
    · exact (Mirrors.warn _).bind fun _ => Mirrors.pure rfl

theorem decideBranch_mirrors (condition : Operand) {value otherwise : Eval Operand}
    (hvalue : A.Mirrors context context' (Operand.rename A.rename) value value)
    (hotherwise : A.Mirrors context context' (Operand.rename A.rename) otherwise otherwise) :
    A.Mirrors context context' (Operand.rename A.rename) (decideBranch condition value otherwise)
      (decideBranch (condition.rename A.rename) value otherwise) := by
  cases condition with
  | unresolved => exact Mirrors.unresolved _
  | value condition =>
    cases condition with
    | boolean b =>
      cases b with
      | true => exact hvalue
      | false => exact hotherwise
    | _ => exact Mirrors.unresolved _

theorem firstBranch_mirrors {branches : List (Expr × Expr)} {otherwise : Eval Operand}
    (h : ∀ branch ∈ branches, branch.1.Agrees A env ∧ branch.2.Agrees A env)
    (hotherwise : A.Mirrors context context' (Operand.rename A.rename) otherwise otherwise)
    (hc : A.Contexts context context') :
    A.Mirrors context context' (Operand.rename A.rename) (firstBranch env branches otherwise)
      (firstBranch env branches otherwise) := by
  induction branches with
  | nil => exact hotherwise
  | cons branch rest ih =>
    obtain ⟨hcondition, hvalue⟩ := h branch (by simp)
    refine (hcondition.operandOf .operand hc).bind fun condition => ?_
    exact decideBranch_mirrors condition (hvalue.operandOf .operand hc)
      (ih fun branch hbranch => h branch (by simp [hbranch]))

theorem otherwiseOf_mirrors {otherwise : Option Expr} (h : ∀ e ∈ otherwise, e.Agrees A env)
    (hc : A.Contexts context context') :
    A.Mirrors context context' (Operand.rename A.rename) (otherwiseOf env otherwise)
      (otherwiseOf env otherwise) := by
  cases otherwise with
  | none => exact Mirrors.pure rfl
  | some e => exact (h e rfl).operandOf .operand hc

theorem binary_agrees {op : BinaryOperator} {left right : Expr} (hleft : left.Agrees A env)
    (hright : right.Agrees A env) : (binary op left right).Agrees A env := by
  intro position context context' hc
  have hoperands : A.Mirrors context context' (Operand.rename A.rename)
      (do
        Eval.push (← left.result env .operand)
        Eval.push (← right.result env .operand)
        let r ← Eval.pop
        let l ← Eval.pop
        op.apply l r)
      (do
        Eval.push (← left.result env .operand)
        Eval.push (← right.result env .operand)
        let r ← Eval.pop
        let l ← Eval.pop
        op.apply l r) :=
    Mirrors.bothOperands (hleft .operand context context' hc) (hright .operand context context' hc)
      op.apply_mirrors
  have htarget : A.Mirrors context context' id (Eval.ofExcept (env.typeOperand op right))
      (Eval.ofExcept (env.typeOperand op right)) :=
    Mirrors.ofExcept (by cases env.typeOperand op right <;> rfl)
  cases op with
  | cast =>
    rw [result]
    split
    · refine (hleft .root context context' hc).bind fun source => ?_
      exact htarget.bind fun target => Environment.castTo_mirrors target source
    · exact Mirrors.fail _
  | is | isNot =>
    refine (hleft.operandOf .operand hc).bind fun operand => ?_
    refine htarget.bind fun target => Mirrors.pure ?_
    rw [Environment.isInstance_rename]
    rfl
  | _ => exact hoperands

theorem unary_agrees {op : UnaryOperator} {operand : Expr} (h : operand.Agrees A env) :
    (unary op operand).Agrees A env := by
  intro position context context' hc
  have hshape : A.Mirrors context context' id (Eval.ofExcept (op.checkShape operand))
      (Eval.ofExcept (op.checkShape operand)) :=
    Mirrors.ofExcept (by cases op.checkShape operand <;> rfl)
  rw [result]
  split
  · exact h .operand context context' hc
  · refine hshape.bind fun _ => (h.operandOf .operand hc).bind fun value => ?_
    exact Mirrors.ofExcept (op.apply_rename A.rename value)

theorem invoke_agrees (henv : env.Respects A.rename) {receiver : Option Expr} {method : String}
    {args : List Expr} {declared : Option String}
    (hadmits : A.Admits (invoke receiver method args declared))
    (hreceiver : ∀ e ∈ receiver, e.Agrees A env) (hargs : ∀ e ∈ args, e.Agrees A env)
    (hargsAdmit : ∀ e ∈ args, A.Admits e) :
    (invoke receiver method args declared).Agrees A env := by
  intro position context context' hc
  have hpass := arguments_pass hargs hargsAdmit hc
  cases receiver with
  | none =>
    have hcall : A.Mirrors context context' (Operand.rename A.rename)
        (env.callFunction ⟨none, method, arguments env args, declared⟩)
        (env.callFunction ⟨none, method, arguments env args, declared⟩) :=
      Environment.callFunction_mirrors henv ⟨none, method, arguments env args, declared⟩ hc hpass
    have haggregates : (AggregateKind.ofName? method).isSome → A.aggregates := hadmits
    rw [result]
    cases hkind : AggregateKind.ofName? method with
    | none => exact hcall
    | some kind =>
      cases hargument : aggregated? env args with
      | none => exact hcall
      | some argument =>
        refine kind.evaluate_mirrors (haggregates (by simp [hkind])) hc fun member => ?_
        -- An aggregate takes one argument, which is evaluated with each member as the candidate.
        obtain ⟨e, rfl⟩ : ∃ e, args = [e] := by
          cases args with
          | nil => cases hargument
          | cons e rest =>
            cases rest with
            | nil => exact ⟨e, rfl⟩
            | cons _ _ => cases hargument
        obtain rfl := Option.some.inj hargument
        exact (hargs e (by simp)).operandOf .aggregated (hc.setCandidate member)
  | some e =>
    refine ((hreceiver e rfl).operandOf .operand hc).bind fun operand => ?_
    cases operand with
    | unresolved => exact Mirrors.pure rfl
    | value receiver =>
      exact Environment.callMethod_mirrors henv receiver _ hc hpass

theorem creator_agrees {typeName : String} {args : List Expr} (h : ∀ e ∈ args, e.Agrees A env)
    (hadmits : ∀ e ∈ args, A.Admits e) : (creator typeName args).Agrees A env := by
  intro position context context' hc
  refine Mirrors.allOperands (arguments_pass h hadmits hc) fun operands => ?_
  rw [Environment.allValues_rename]
  cases Environment.allValues operands with
  | none => exact Mirrors.pure rfl
  | some values => exact Environment.create_mirrors typeName values

theorem result_agrees (henv : env.Respects A.rename) {e : Expr} (h : e.All A.Admits) :
    e.Agrees A env := by
  induction h with
  | @node e hself hbelow ih =>
    have hadmits : ∀ child ∈ e.children, A.Admits child :=
      fun child hchild => (hbelow child hchild).self
    cases e with
    | literal value => exact fun _ _ _ _ => Mirrors.pure (congrArg Operand.value hself.symm)
    | parameter name =>
      intro position context context' hc
      refine Mirrors.readContext (Mirrors.pure ?_)
      rw [hc.parameter]
      rfl
    | var name => exact fun position _ _ hc => variableOperand_mirrors position hself hc
    | path qualifier segments =>
      intro position context context' hc
      cases qualifier with
      | none => exact Environment.path_mirrors henv.loads hc segments
      | some qualifier =>
        have hqualifier := ih qualifier (by simp [children])
        exact (hqualifier .root context context' hc).bind fun root =>
          Environment.pathFrom_mirrors henv.loads root segments
    | binary op left right =>
      exact binary_agrees (ih left (by simp [children])) (ih right (by simp [children]))
    | unary op operand => exact unary_agrees (ih operand (by simp [children]))
    | invoke receiver method args declared =>
      refine invoke_agrees henv hself (fun e he => ih e ?_) (fun e he => ih e ?_)
        fun e he => hadmits e ?_
      all_goals simp_all [children]
    | creator typeName args => exact creator_agrees ih hadmits
    | conditional branches otherwise =>
      intro position context context' hc
      refine firstBranch_mirrors (fun branch hbranch => ⟨ih branch.1 ?_, ih branch.2 ?_⟩)
        (otherwiseOf_mirrors (fun e he => ih e ?_) hc) hc
      · exact List.mem_append_left _ (List.mem_flatMap.mpr ⟨branch, hbranch, by simp⟩)
      · exact List.mem_append_left _ (List.mem_flatMap.mpr ⟨branch, hbranch, by simp⟩)
      · exact List.mem_append_right _ (by simpa using he)
    | array elements =>
      intro position context context' hc
      refine (elementValues_mirrors ih hc).bind fun values => ?_
      cases values <;> exact Mirrors.pure (by simp [Operand.rename, Value.rename])

end Expr

end ObjectQuery
