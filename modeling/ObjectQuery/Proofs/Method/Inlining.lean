import Mathlib.Data.List.Forall2
import ObjectQuery.Proofs.Evaluation.Inlining

/-!
Methods end alike if their arguments do.
-/

namespace ObjectQuery

variable {name : String} {value : Value}

/-- Arguments that are the same variable, if they are one, and whose visits end alike. -/
structure InlinesArgument (name : String) (value : Value) (first second : Argument) : Prop where
  variableName : second.expr.variableName? = first.expr.variableName?
  visit : Inlines name value first.visit second.visit
  keeps : first.visit.Keeps
  keeps' : second.visit.Keeps

/-- Calls of one name, with as many arguments, on receivers of one declared type. -/
structure InlinesCall (name : String) (value : Value) (first second : Call) : Prop where
  name_eq : second.name = first.name
  declared_eq : second.declared = first.declared
  args : List.Forall₂ (InlinesArgument name value) first.args second.args

namespace InlinesArgument

variable {first second : Argument} (h : InlinesArgument name value first second)
include h

theorem operand : Inlines name value first.operand second.operand :=
  h.visit.bind fun _ => .pop

theorem member (candidates : List Value) :
    Inlines name value (first.member candidates) (second.member candidates) := by
  rw [Argument.member, Argument.member, h.variableName]
  cases first.expr.variableName? with
  | none => exact h.operand
  | some missing =>
    refine .readContext fun context => ?_
    have hbinding : (context.setParameter name value).binding? missing =
        context.binding? missing := rfl
    rw [hbinding]
    cases context.binding? missing with
    | none => exact .stopOn missing (some candidates)
    | some bound => exact h.operand

theorem evaluate_bind {α : Type} {next next' : Except EvalError Resolution → Eval α}
    (hnext : ∀ outcome outcome', Resolution.Alike outcome outcome' →
      Inlines name value (next outcome) (next' outcome')) :
    Inlines name value (first.evaluate >>= next) (second.evaluate >>= next') := by
  intro machine
  obtain ⟨halike, htrace, hsupply⟩ := h.visit.resolve machine
  obtain ⟨trace, supply, hfirst⟩ := h.keeps (machine.given name value)
  obtain ⟨trace', supply', hsecond⟩ := h.keeps' machine
  simp only [Bind.bind, EStateM.bind, Argument.evaluate_apply]
  rw [hfirst, hsecond] at htrace hsupply ⊢
  obtain rfl : trace = trace' := htrace
  obtain rfl : supply = supply' := hsupply
  exact hnext _ _ halike ⟨machine.context, machine.stack, trace, supply⟩

end InlinesArgument

section Arguments

variable {args args' : List Argument}
  (h : List.Forall₂ (InlinesArgument name value) args args')
include h

theorem Argument.values_inlines :
    Inlines name value (Argument.values args) (Argument.values args') := by
  induction h with
  | nil => exact .pure _
  | cons hargument _ ih =>
    refine hargument.operand.bind fun operand => ?_
    cases operand with
    | unresolved => exact .pure _
    | value value => exact ih.bind fun _ => .pure _

theorem Argument.visitAll_inlines :
    Inlines name value (args.forM Argument.visit) (args'.forM Argument.visit) := by
  induction h with
  | nil => exact .pure _
  | cons hargument _ ih => exact hargument.visit.bind fun _ => ih

end Arguments

namespace InlinesCall

variable {first second : Call} (h : InlinesCall name value first second)
include h

theorem length_eq : second.args.length = first.args.length := h.args.length_eq.symm

theorem countError_eq (arity : Arity) : second.countError arity = first.countError arity := by
  rw [Call.countError, h.name_eq, h.length_eq, Call.countError]

theorem integer_eq : second.integer = first.integer := by
  funext number
  rw [Call.integer, h.name_eq, Call.integer]

theorem checkCount (arity : Arity) :
    Inlines name value (first.checkCount arity) (second.checkCount arity) := by
  rw [Call.checkCount, Call.checkCount, h.length_eq, h.countError_eq]
  split
  · exact .pure ()
  · exact .fail (.refl _)

end InlinesCall

section Methods

variable {first second : Call}

namespace CollectionMethod

theorem elementAt_inlines (h : InlinesCall name value first second) (elements : List Value)
    (position : Value) :
    Inlines name value (elementAt first elements position)
    (elementAt second elements position) := by
  have heq : elementAt second elements position = elementAt first elements position := by
    rw [elementAt, h.integer_eq, elementAt]
  rw [heq]
  refine .of_mirrors Operand.rename_id ?_ fun _ _ =>
    elementAt_mirrors first elements position
  simp [Agreement.refl]

theorem evaluate_inlines (h : InlinesCall name value first second) (method : CollectionMethod)
    (receiver : Value) :
    Inlines name value (method.evaluate first receiver) (method.evaluate second receiver) := by
  rw [evaluate, evaluate]
  cases receiver.elements? with
  | none => exact .fail (.refl _)
  | some elements =>
    refine (h.checkCount _).bind fun _ => ?_
    have hcount := h.countError_eq method.arity
    have helement := fun position => elementAt_inlines h elements position
    obtain ⟨_, _, args, _⟩ := first
    obtain ⟨_, _, args', _⟩ := second
    cases h.args with
    | nil => 
      cases method with
      | contains | get =>
        simp only [hcount]
        exact .fail (.refl _)
      | isEmpty | size | length => exact .pure _
    | cons hargument _ =>
      cases method with
      | contains =>
        refine (hargument.member elements).bind fun operand => ?_
        cases operand <;> exact .pure _
      | isEmpty | size | length => exact .pure _
      | get =>
        refine hargument.operand.bind fun operand => ?_
        cases operand with
        | unresolved => exact .pure _
        | value position => exact helement position

end CollectionMethod

namespace MapMethod

theorem byKey_inlines {argument argument' : Argument}
    (h : InlinesArgument name value argument argument') (entries : List (Value × Value))
    (otherwise : Operand) {found found' : Option Value → Eval Operand}
    (hfound : ∀ value?, Inlines name value (found value?) (found' value?)) :
    Inlines name value (byKey argument entries otherwise found)
      (byKey argument' entries otherwise found') := by
  refine (h.member _).bind fun operand => ?_
  cases operand with
  | unresolved => exact .pure _
  | value key => exact hfound _

theorem equalsStored_inlines {argument argument' : Argument}
    (h : InlinesArgument name value argument argument') (stored? : Option Value) :
    Inlines name value (equalsStored argument stored?) (equalsStored argument' stored?) := by
  cases stored? with
  | none => exact .pure _
  | some stored =>
    refine (h.member _).bind fun operand => ?_
    cases operand <;> exact .pure _

theorem evaluate_inlines (h : InlinesCall name value first second) (method : MapMethod)
    (receiver : Value) :
    Inlines name value (method.evaluate first receiver) (method.evaluate second receiver) := by
  cases receiver with
  | map entries =>
    refine (h.checkCount _).bind fun _ => ?_
    have hcount := h.countError_eq method.arity
    obtain ⟨_, _, args, _⟩ := first
    obtain ⟨_, _, args', _⟩ := second
    cases h.args with
    | nil =>
      cases method with
      | isEmpty | size => exact .pure _
      | _ =>
        simp only [hcount]
        exact .fail (.refl _)
    | cons hkey hrest =>
      cases method with
      | isEmpty | size => exact .pure _
      | containsKey | get => exact byKey_inlines hkey entries _ fun _ => .pure _
      | containsValue =>
        refine (hkey.member _).bind fun operand => ?_
        cases operand <;> exact .pure _
      | containsEntry =>
        cases hrest with
        | nil =>
          simp only [hcount]
          exact .fail (.refl _)
        | cons hvalue _ => exact byKey_inlines hkey entries _ (equalsStored_inlines hvalue)
  | _ => exact .fail (.refl _)

end MapMethod

theorem Call.onlyArgument_inlines {next : Value → Eval Operand}
    (h : InlinesCall name value first second)
    (hnext : ∀ v, Inlines name value (next v) (next v)) :
    Inlines name value (first.onlyArgument next) (second.onlyArgument next) := by
  refine (h.checkCount _).bind fun _ => ?_
  have hcount := h.countError_eq (.exactly 1)
  obtain ⟨_, _, args, _⟩ := first
  obtain ⟨_, _, args', _⟩ := second
  cases h.args with
  | nil =>
    simp only [hcount]
    exact .fail (.refl _)
  | cons hargument _ =>
    refine hargument.operand.bind fun operand => ?_
    cases operand with
    | unresolved => exact .pure _
    | value v => exact hnext v

theorem MathFunction.evaluate_inlines (h : InlinesCall name value first second)
    (function : MathFunction) :
    Inlines name value (function.evaluate first) (function.evaluate second) := by
  rw [evaluate_eq, evaluate_eq]
  exact Call.onlyArgument_inlines h fun _ => (Inlines.ofExcept _).bind fun _ => .pure _

theorem NumberMethod.evaluate_inlines (h : InlinesCall name value first second)
    (method : NumberMethod) (receiver : Value) :
    Inlines name value (method.evaluate first receiver) (method.evaluate second receiver) := by
  refine (h.checkCount _).bind fun _ => ?_
  cases receiver.toDouble? with
  | none => exact .fail (.refl _)
  | some x => exact .pure _

namespace TextMethod

theorem apply_inlines (h : InlinesCall name value first second) (method : TextMethod) (s : String)
    (args : List Value) :
    Inlines name value (method.apply first s args) (method.apply second s args) := by
  have heq : method.apply second s args = method.apply first s args := by
    simp only [apply, h.integer_eq, h.countError_eq]
  rw [heq]
  refine .of_mirrors Operand.rename_id ?_ fun _ _ =>
    method.apply_mirrors first s args
  simp [Agreement.refl]

theorem evaluate_inlines (h : InlinesCall name value first second) (method : TextMethod)
    (receiver : Value) :
    Inlines name value (method.evaluate first receiver) (method.evaluate second receiver) := by
  refine (h.checkCount _).bind fun _ => ?_
  cases receiver.string? with
  | none => exact .fail (.refl _)
  | some s =>
    refine (Argument.values_inlines h.args).bind fun values => ?_
    cases values with
    | none => exact .pure _
    | some values => exact method.apply_inlines h s values

end TextMethod

/-! ### Methods of a program -/

theorem Script.run_inlines {n : Nat} {script script' : Script n}
    {argument argument' : Fin n → Argument}
    (h : script.Corresponds id EvalError.Alike script')
    (hargs : ∀ index, InlinesArgument name value (argument index) (argument' index)) :
    Inlines name value (script.run argument) (script'.run argument') := by
  induction h with
  | answer operand =>
    rw [Operand.rename_id]
    exact .pure operand
  | fail h => exact .fail h
  | warn warning _ ih => exact (Inlines.warn warning).bind fun _ => ih
  | operand index _ ih =>
    simp only [Operand.rename_id] at ih
    exact (hargs index).operand.bind ih
  | member index candidates _ ih =>
    simp only [Operand.rename_id] at ih
    rw [Value.rename_id_eq_id, List.map_id]
    exact ((hargs index).member candidates).bind ih
  | evaluate index _ _ ihok iherror =>
    simp only [Resolution.rename_id] at ihok
    refine (hargs index).evaluate_bind fun outcome outcome' halike => ?_
    cases halike with
    | ok resolution => exact ihok resolution
    | error h => exact iherror _ _ h

namespace Method

/-- A method that is built in, or does nothing but have its arguments evaluated and goes on alike
behind errors of one kind. -/
def TellsErrorsByKind : Method → Prop
  | custom method => ∃ scripts, method.Follows scripts ∧ ∀ name receiver n,
      (scripts name receiver n).Corresponds id EvalError.Alike (scripts name receiver n)
  | _ => True

theorem TellsErrorsByKind.evaluatesArguments {method : Method} (h : method.TellsErrorsByKind) :
    method.EvaluatesArguments := by
  cases method with
  | custom method =>
    obtain ⟨scripts, hscripts, -⟩ := h
    exact ⟨scripts, hscripts⟩
  | _ => trivial

theorem custom_inlines {method : CustomMethod} (hmethod : (custom method).TellsErrorsByKind)
    (h : InlinesCall name value first second) (receiver : Value) :
    Inlines name value (method.evaluate first receiver) (method.evaluate second receiver) := by
  obtain ⟨scripts, hscripts, hcorresponds⟩ := hmethod
  obtain ⟨hlength, hargs⟩ := List.forall₂_iff_get.mp h.args
  have hplaces : ∀ (n : Nat) (hn : n = second.args.length),
      (scripts first.name receiver second.args.length).run second.args.get =
        (scripts first.name receiver n).run fun index => second.args.get (index.cast hn) := by
    rintro _ rfl
    rfl
  rw [hscripts, hscripts, h.name_eq, hplaces _ hlength]
  exact Script.run_inlines (hcorresponds _ _ _) fun index =>
    hargs _ index.isLt (index.cast hlength).isLt

end Method

/-! ### All methods -/

namespace Method

theorem evaluateIdentity_inlines (h : InlinesCall name value first second) (receiver : Value) :
    Inlines name value (evaluateIdentity first receiver) (evaluateIdentity second receiver) :=
  (h.checkCount _).bind fun _ => .pure _

theorem evaluateIdentityOf_inlines (h : InlinesCall name value first second) :
    Inlines name value (evaluateIdentityOf first) (evaluateIdentityOf second) := by
  rw [evaluateIdentityOf_eq, evaluateIdentityOf_eq]
  exact Call.onlyArgument_inlines h fun _ => .pure _

theorem evaluate_inlines {method : Method} (hmethod : method.TellsErrorsByKind)
    (h : InlinesCall name value first second) (receiver : Value) :
    Inlines name value (method.evaluate first receiver) (method.evaluate second receiver) := by
  cases method with
  | text method => exact method.evaluate_inlines h receiver
  | collection method => exact method.evaluate_inlines h receiver
  | map method => exact method.evaluate_inlines h receiver
  | math function => exact function.evaluate_inlines h
  | number method => exact method.evaluate_inlines h receiver
  | identity => exact evaluateIdentity_inlines h receiver
  | identityOf => exact evaluateIdentityOf_inlines h
  | custom method => exact custom_inlines hmethod h receiver

end Method

end Methods

/-- The methods that a program has added do nothing but have their arguments evaluated, and tell
errors of these apart by their kinds alone. -/
class Registry.TellsErrorsByKind (registry : Registry) : Prop where
  every : registry.Every Method.TellsErrorsByKind

namespace Registry

instance : empty.TellsErrorsByKind := ⟨every_empty⟩

instance : builtin.TellsErrorsByKind :=
  ⟨every_builtin (by simp [builtinEntries, Method.TellsErrorsByKind, or_imp, forall_and])⟩

instance (priority := low) {registry : Registry} [h : registry.TellsErrorsByKind] :
    registry.EvaluatesArguments :=
  ⟨h.every.imp fun _ => Method.TellsErrorsByKind.evaluatesArguments⟩

end Registry

end ObjectQuery
