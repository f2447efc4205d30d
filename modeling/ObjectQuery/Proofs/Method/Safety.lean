import ObjectQuery.Method
import ObjectQuery.Proofs.Method.Agreement
import ObjectQuery.Proofs.Value.Description

/-!
Safe steps: they take from the stack what they have put there and nothing else, and end with no
errors but those that have a cause. Main statement: a method that evaluates safe arguments is safe.
In particular it refuses a number of arguments only if its arity does not admit it, so behind the
check of their number every argument that it takes is there.
-/

namespace ObjectQuery

/-- Whether an operand has no parts and is no object. -/
def Operand.isFlat (operand : Operand) : Bool := operand.valueOrNull.isFlat

/-- An error with a cause in the expression or in the data: the machine lacks no operand and has
none left over, and a number of arguments is refused only by an arity that does not admit it. -/
def EvalError.Warranted : EvalError → Prop
  | stackImbalance _ | stackUnderflow => False
  | argumentCount _ expected actual =>
    ∃ arity : Arity, arity.describe = expected ∧ arity.admits actual = false
  | _ => True

variable {raised : EvalError → Prop}

/-- A halt that is a stop, or an error that is warranted or that methods of the program raise. -/
def Halt.Warranted (raised : EvalError → Prop) : Halt → Prop
  | .unbound _ => True
  | .fatal error => error.Warranted ∨ raised error

namespace Eval

variable {α β : Type} {p : α → Prop} {r : β → Prop} {step : Eval α} {next : α → Eval β}

/-- A step that leaves the operands it finds if it ends, and has then a result as told. If it halts,
they are still there below what it has pushed, and the halt is warranted. -/
def Ensures (raised : EvalError → Prop) (step : Eval α) (p : α → Prop) : Prop :=
  ∀ machine, match step machine with
    | .ok a after => after.stack = machine.stack ∧ p a
    | .error halt after => machine.stack <:+ after.stack ∧ halt.Warranted raised

/-- A step as told, whatever its result. -/
def Safe (raised : EvalError → Prop) (step : Eval α) : Prop := Ensures raised step fun _ => True

/-- A step that has a result as told if it ends, and changes nothing but the trace. If it halts, it
does so with a warranted error. -/
def Quiet (step : Eval α) (p : α → Prop) : Prop :=
  ∀ machine, match step machine with
    | .ok a after => (∃ trace, after = { machine with trace := trace }) ∧ p a
    | .error halt after => (∃ trace, after = { machine with trace := trace }) ∧
      ∃ error : EvalError, error.Warranted ∧ halt = .fatal error

namespace Ensures

theorem pure {a : α} (h : p a) : Ensures raised (pure a) p := fun _ => ⟨rfl, h⟩

theorem bind (h : Ensures raised step p) (hnext : ∀ a, p a → Ensures raised (next a) r) :
    Ensures raised (step >>= next) r := by
  intro machine
  have hstep := h machine
  simp only [Bind.bind, EStateM.bind]
  cases hrun : step machine with
  | ok a after =>
    simp only [hrun] at hstep
    obtain ⟨hstack, ha⟩ := hstep
    have hrest := hnext a ha after
    rwa [hstack] at hrest
  | error halt after =>
    rw [hrun] at hstep
    exact hstep

theorem fail {error : EvalError} (h : error.Warranted) :
    Ensures raised (Eval.fail error : Eval α) p := fun _ => ⟨List.suffix_refl _, .inl h⟩

theorem stopOn (name : String) (candidates : Option (List Value)) :
    Ensures raised (Eval.stopOn name candidates : Eval α) p := fun _ =>
      ⟨List.suffix_refl _, trivial⟩

end Ensures

namespace Quiet

theorem pure {a : α} (h : p a) : Quiet (pure a) p := fun machine => ⟨⟨machine.trace, rfl⟩, h⟩

theorem fail {error : EvalError} (h : error.Warranted) : Quiet (Eval.fail error : Eval α) p :=
  fun machine => ⟨⟨machine.trace, rfl⟩, error, h, rfl⟩

theorem unresolved {p : Operand → Prop} (warning : Warning) (h : p .unresolved) :
    Quiet (Eval.unresolved warning) p := fun machine => ⟨⟨machine.trace.warn warning, rfl⟩, h⟩

theorem ofExcept {result : Except EvalError α} (hok : ∀ a, result = .ok a → p a)
    (herror : ∀ error, result = .error error → error.Warranted) :
    Quiet (Eval.ofExcept result) p := by
  cases result with
  | ok a => exact pure (hok a rfl)
  | error error => exact fail (herror error rfl)

theorem load (access : FieldAccess) (object : Object) (index : Nat) :
    Quiet (Eval.load access object index) fun value => access.fetch object index = .ok value := by
  rw [Eval.load]
  cases access.fetch object index with
  | ok value => exact fun machine => ⟨⟨machine.trace.countLoad, rfl⟩, rfl⟩
  | error cause => exact fail trivial

theorem bind (h : Quiet step p) (hnext : ∀ a, p a → Quiet (next a) r) :
    Quiet (step >>= next) r := by
  intro machine
  have hstep := h machine
  simp only [Bind.bind, EStateM.bind]
  cases hrun : step machine with
  | ok a after =>
    simp only [hrun] at hstep
    obtain ⟨⟨trace, rfl⟩, ha⟩ := hstep
    exact hnext a ha _
  | error halt after =>
    rw [hrun] at hstep
    exact hstep

theorem ensures (h : Quiet step p) : Ensures raised step p := by
  intro machine
  have hstep := h machine
  cases hrun : step machine with
  | ok a after =>
    simp only [hrun] at hstep
    obtain ⟨⟨trace, rfl⟩, ha⟩ := hstep
    exact ⟨rfl, ha⟩
  | error halt after =>
    rw [hrun] at hstep
    obtain ⟨⟨trace, rfl⟩, error, herror, rfl⟩ := hstep
    exact ⟨List.suffix_refl _, .inl herror⟩

theorem safe (h : Quiet step p) : Safe raised step := by
  intro machine
  have hensures : Ensures raised step p := h.ensures
  have hstep := hensures machine
  cases hrun : step machine with
  | ok a after =>
    simp only [hrun] at hstep
    exact ⟨hstep.1, trivial⟩
  | error halt after =>
    rw [hrun] at hstep
    exact hstep

end Quiet

namespace Safe

theorem pure (a : α) : Safe raised (pure a) := Ensures.pure trivial

theorem bind (h : Safe raised step) (hnext : ∀ a, Safe raised (next a)) :
    Safe raised (step >>= next) := Ensures.bind h fun a _ => hnext a

theorem ofExcept {result : Except EvalError α}
    (herror : ∀ error, result = .error error → error.Warranted) :
    Safe raised (Eval.ofExcept result) := by
  cases result with
  | ok a => exact pure a
  | error error => exact Ensures.fail (herror error rfl)

theorem context : Safe raised Eval.context := fun _ => ⟨rfl, trivial⟩

theorem modifyContext (f : Context → Context) : Safe raised (Eval.modifyContext f) :=
  fun _ => ⟨rfl, trivial⟩

theorem warn (warning : Warning) : Safe raised (Eval.warn warning) := fun _ => ⟨rfl, trivial⟩

theorem unresolved (warning : Warning) : Safe raised (Eval.unresolved warning) :=
  fun _ => ⟨rfl, trivial⟩

theorem fresh : Safe raised Eval.fresh := fun _ => ⟨rfl, trivial⟩

theorem truncate_stack {machine after : Machine} (h : machine.stack <:+ after.stack) :
    (after.truncate machine.depth).stack = machine.stack := by
  obtain ⟨pushed, hstack⟩ := h
  simp [Machine.truncate, Machine.depth, ← hstack]

theorem restoring (h : Safe raised step) : Safe raised (Eval.restoring step) := by
  intro machine
  have hstep := h machine
  simp only [Eval.restoring]
  cases hrun : step machine with
  | ok a after =>
    simp only [hrun] at hstep
    exact ⟨truncate_stack (hstep.1 ▸ List.suffix_refl _), trivial⟩
  | error halt after =>
    rw [hrun] at hstep
    exact ⟨(truncate_stack hstep.1).symm ▸ List.suffix_refl _, hstep.2⟩

theorem resolve {operand : Eval Operand} (h : Safe raised operand) (machine : Machine) :
    (completion (Eval.resolve do Eval.push (← operand)) machine).2.stack = machine.stack ∧
      ∀ error, (completion (Eval.resolve do Eval.push (← operand)) machine).1 = .error error →
        error.Warranted ∨ raised error := by
  have hoperand := h machine
  simp only [completion, Eval.resolve, Bind.bind, EStateM.bind]
  cases hrun : operand machine with
  | ok value after =>
    simp only [hrun] at hoperand
    simp [Eval.push_apply, Machine.truncate, Machine.depth, hoperand.1]
  | error halt after =>
    rw [hrun] at hoperand
    cases halt with
    | unbound missing => exact ⟨truncate_stack hoperand.1, by simp⟩
    | fatal error =>
      refine ⟨truncate_stack hoperand.1, ?_⟩
      rintro _ ⟨⟩
      exact hoperand.2

variable {raised' : EvalError → Prop}

theorem mono (h : Safe raised step) (himp : ∀ error, raised error → raised' error) :
    Safe raised' step := by
  intro machine
  have hstep := h machine
  cases hrun : step machine with
  | ok a after =>
    rw [hrun] at hstep
    exact hstep
  | error halt after =>
    rw [hrun] at hstep
    cases halt with
    | unbound missing => exact hstep
    | fatal error => exact ⟨hstep.1, hstep.2.imp_right (himp error)⟩

theorem of_each (h : ∀ error, Safe (fun other => other = error → raised other) step) :
    Safe raised step := by
  intro machine
  cases hrun : step machine with
  | ok a after =>
    have hstep := h .stackUnderflow machine
    rw [hrun] at hstep
    exact hstep
  | error halt after =>
    cases halt with
    | unbound missing =>
      have hstep := h .stackUnderflow machine
      rw [hrun] at hstep
      exact hstep
    | fatal error =>
      have hstep := h error machine
      rw [hrun] at hstep
      exact ⟨hstep.1, hstep.2.imp_right fun hraised => hraised rfl⟩

end Safe

end Eval

open Eval

/-! ### Arguments -/

namespace Argument

/-- An argument that pushes one operand, by a safe step. -/
def Safe (raised : EvalError → Prop) (argument : Argument) : Prop :=
  ∃ operand : Eval Operand,
    (argument.visit = do Eval.push (← operand)) ∧ Eval.Safe raised operand

variable {argument : Argument}

theorem Safe.mono {raised' : EvalError → Prop} (h : argument.Safe raised)
    (himp : ∀ error, raised error → raised' error) : argument.Safe raised' := by
  obtain ⟨operand, hvisit, hoperand⟩ := h
  exact ⟨operand, hvisit, hoperand.mono himp⟩

theorem operand_safe (h : argument.Safe raised) : Eval.Safe raised argument.operand := by
  obtain ⟨operand, hvisit, hoperand⟩ := h
  rw [operand_of_visit hvisit]
  exact hoperand

theorem member_safe (h : argument.Safe raised) (candidates : List Value) :
    Eval.Safe raised (argument.member candidates) := by
  rw [member]
  cases argument.expr.variableName? with
  | none => exact operand_safe h
  | some name =>
    refine Safe.context.bind fun context => ?_
    cases context.binding? name with
    | none => exact Ensures.stopOn name (some candidates)
    | some value => exact operand_safe h

theorem evaluate_ensures (h : argument.Safe raised) :
    Ensures raised argument.evaluate fun outcome =>
      ∀ error, outcome = .error error → error.Warranted ∨ raised error := by
  obtain ⟨operand, hvisit, hoperand⟩ := h
  intro machine
  rw [evaluate_apply, hvisit]
  exact hoperand.resolve machine

theorem values_ensures {args : List Argument} (h : ∀ argument ∈ args, argument.Safe raised) :
    Ensures raised (Argument.values args) fun values =>
      ∀ vs ∈ values, vs.length = args.length := by
  induction args with
  | nil => exact .pure (by simp)
  | cons argument rest ih =>
    rw [values]
    refine Ensures.bind (operand_safe (h argument (by simp))) fun operand _ => ?_
    cases operand with
    | unresolved => exact .pure (by simp)
    | value value =>
      refine (ih fun argument hargument => h argument (by simp [hargument])).bind
        fun values hvalues => .pure ?_
      cases values with
      | none => simp
      | some vs => simpa using hvalues vs rfl

end Argument

namespace Call

theorem checkCount_quiet (call : Call) (arity : Arity) :
    Quiet (call.checkCount arity) fun _ => arity.admits call.args.length := by
  rw [checkCount]
  cases hadmits : arity.admits call.args.length with
  | true => exact .pure rfl
  | false => exact .fail ⟨arity, rfl, hadmits⟩

theorem integer_quiet (call : Call) (value : Value) :
    Quiet (call.integer value) fun _ => True := by
  rw [integer]
  split
  · split
    · exact .pure trivial
    · exact .fail trivial
  · exact .fail trivial

end Call

/-! ### Collections and maps -/

namespace CollectionMethod

theorem elementAt_quiet (call : Call) (elements : List Value) (position : Value) :
    Quiet (elementAt call elements position) fun operand =>
      operand = .unresolved ∨ operand.valueOrNull ∈ elements := by
  refine (call.integer_quiet position).bind fun index _ => ?_
  split
  · rename_i element helement
    split at helement
    · exact .pure (.inr (List.mem_of_getElem? helement))
    · cases helement
  · exact .unresolved _ (.inl rfl)

theorem apply_safe (method : CollectionMethod) (call : Call) (elements : List Value)
    (hargs : ∀ argument ∈ call.args, argument.Safe raised) :
    Safe raised (method.apply call elements) := by
  refine (call.checkCount_quiet _).ensures.bind fun _ hadmits => ?_
  rcases call with ⟨_, name, args, _⟩
  cases args with
  | nil =>
    cases method with
    | contains | get => exact absurd hadmits (by decide : ¬ Arity.admits (.exactly 1) 0)
    | isEmpty | size | length => exact Safe.pure _
  | cons argument rest =>
    have hargument := hargs argument (by simp)
    cases method with
    | contains =>
      refine (Argument.member_safe hargument elements).bind fun operand => ?_
      cases operand <;> exact Safe.pure _
    | get =>
      refine (Argument.operand_safe hargument).bind fun operand => ?_
      cases operand with
      | value position => exact (elementAt_quiet _ elements position).safe
      | unresolved => exact Safe.pure _
    | isEmpty | size | length => exact Safe.pure _

theorem evaluate_safe (method : CollectionMethod) (call : Call) (receiver : Value)
    (hargs : ∀ argument ∈ call.args, argument.Safe raised) :
    Safe raised (method.evaluate call receiver) := by
  rw [evaluate]
  cases receiver.elements? with
  | none => exact Ensures.fail trivial
  | some elements => exact method.apply_safe call elements hargs

end CollectionMethod

namespace MapMethod

theorem byKey_safe {argument : Argument} (h : argument.Safe raised)
    (entries : List (Value × Value)) (otherwise : Operand) {found : Option Value → Eval Operand}
    (hfound : ∀ value, Safe raised (found value)) :
    Safe raised (byKey argument entries otherwise found) := by
  refine (Argument.member_safe h _).bind fun operand => ?_
  cases operand with
  | value key => exact hfound _
  | unresolved => exact Safe.pure _

theorem equalsStored_safe {argument : Argument} (h : argument.Safe raised)
    (stored : Option Value) : Safe raised (equalsStored argument stored) := by
  cases stored with
  | none => exact Safe.pure _
  | some stored =>
    refine (Argument.member_safe h [stored]).bind fun operand => ?_
    cases operand <;> exact Safe.pure _

theorem apply_safe (method : MapMethod) (call : Call) (entries : List (Value × Value))
    (hargs : ∀ argument ∈ call.args, argument.Safe raised) :
    Safe raised (method.apply call entries) := by
  refine (call.checkCount_quiet _).ensures.bind fun _ hadmits => ?_
  rcases call with ⟨_, name, args, _⟩
  cases args with
  | nil =>
    cases method with
    | isEmpty | size => exact Safe.pure _
    | containsKey | containsValue | get =>
      exact absurd hadmits (by decide : ¬ Arity.admits (.exactly 1) 0)
    | containsEntry => exact absurd hadmits (by decide : ¬ Arity.admits (.exactly 2) 0)
  | cons argument rest =>
    have hargument := hargs argument (by simp)
    cases method with
    | isEmpty | size => exact Safe.pure _
    | containsKey | get => exact byKey_safe hargument entries _ fun _ => Safe.pure _
    | containsValue =>
      refine (Argument.member_safe hargument _).bind fun operand => ?_
      cases operand <;> exact Safe.pure _
    | containsEntry =>
      cases rest with
      | nil => exact absurd hadmits (by decide : ¬ Arity.admits (.exactly 2) 1)
      | cons value rest =>
        exact byKey_safe hargument entries _ (equalsStored_safe (hargs value (by simp)))

theorem evaluate_safe (method : MapMethod) (call : Call) (receiver : Value)
    (hargs : ∀ argument ∈ call.args, argument.Safe raised) :
    Safe raised (method.evaluate call receiver) := by
  cases receiver with
  | map entries => exact method.apply_safe call entries hargs
  | _ => exact Ensures.fail trivial

end MapMethod

/-! ### Numbers and identities -/

theorem Call.onlyArgument_safe {next : Value → Eval Operand} (call : Call)
    (hargs : ∀ argument ∈ call.args, argument.Safe raised)
    (hnext : ∀ value, Safe raised (next value)) : Safe raised (call.onlyArgument next) := by
  refine (call.checkCount_quiet _).ensures.bind fun _ hadmits => ?_
  rcases call with ⟨_, name, args, _⟩
  cases args with
  | nil => exact absurd hadmits (by decide : ¬ Arity.admits (.exactly 1) 0)
  | cons argument rest =>
    refine (Argument.operand_safe (hargs argument (by simp))).bind fun operand => ?_
    cases operand with
    | unresolved => exact Safe.pure _
    | value value => exact hnext value

theorem MathFunction.apply_warranted (function : MathFunction) (value : Value) (error : EvalError)
    (h : function.apply value = .error error) : error.Warranted := by
  have hoperand : ∃ operator, error = notNumeric operator value := by
    cases function with
    | abs =>
      cases hn : value.abs? <;> cases value <;> simp_all [apply]
      all_goals exact ⟨_, h.symm⟩
    | sqrt =>
      cases hx : value.toDouble? <;> cases value <;> simp_all [apply]
      all_goals exact ⟨_, h.symm⟩
  obtain ⟨operator, rfl⟩ := hoperand
  trivial

theorem MathFunction.isFlat_of_apply {function : MathFunction} {value result : Value}
    (h : function.apply value = .ok result) : result.isFlat := by
  cases function with
  | abs =>
    cases value <;> simp only [apply, Value.abs?, Except.ok.injEq, reduceCtorEq] at h <;>
      subst h <;> rfl
  | sqrt =>
    cases hx : value.toDouble? <;> cases value <;>
      simp_all only [apply, Except.ok.injEq, reduceCtorEq] <;> subst h <;> rfl

theorem MathFunction.answer_quiet (function : MathFunction) (value : Value) :
    Quiet (do return Operand.value (← Eval.ofExcept (function.apply value)))
      fun operand => operand.isFlat :=
  (Quiet.ofExcept (fun _ => isFlat_of_apply) (function.apply_warranted value)).bind
    fun _ hresult => .pure hresult

theorem MathFunction.evaluate_safe (function : MathFunction) (call : Call)
    (hargs : ∀ argument ∈ call.args, argument.Safe raised) :
    Safe raised (function.evaluate call) := by
  rw [evaluate_eq]
  exact call.onlyArgument_safe hargs fun value => (function.answer_quiet value).safe

theorem NumberMethod.evaluate_quiet (method : NumberMethod) (call : Call) (receiver : Value) :
    Quiet (method.evaluate call receiver) fun operand => operand.isFlat := by
  refine (call.checkCount_quiet _).bind fun _ _ => ?_
  cases receiver.toDouble? with
  | some x => cases method <;> exact .pure rfl
  | none => exact .fail trivial

theorem Method.evaluateIdentity_safe (call : Call) (receiver : Value) :
    Safe raised (evaluateIdentity call receiver) :=
  (call.checkCount_quiet _).ensures.bind fun _ _ => Safe.pure _

theorem Method.evaluateIdentityOf_safe (call : Call)
    (hargs : ∀ argument ∈ call.args, argument.Safe raised) :
    Safe raised (evaluateIdentityOf call) := by
  rw [evaluateIdentityOf_eq]
  exact call.onlyArgument_safe hargs fun _ => Safe.pure _

/-! ### Texts -/

theorem matchesWhole_quiet (pattern text : String) :
    Quiet (matchesWhole pattern text) fun _ => True := by
  rw [matchesWhole]
  split
  · exact .pure trivial
  · exact .fail trivial

namespace TextMethod

theorem text_quiet (method : TextMethod) (value : Value) :
    Quiet (method.text value) fun _ => True := by
  rw [text]
  split
  · exact .pure trivial
  · exact .fail trivial

theorem trimmed_quiet (method : TextMethod) (args : List Value) :
    Quiet (method.trimmed args) fun _ => True := by
  cases args with
  | nil => exact .pure trivial
  | cons value rest =>
    refine (method.text_quiet value).bind fun s _ => ?_
    split
    · exact .pure trivial
    · exact .fail trivial

theorem slice_quiet (method : TextMethod) (cs : List Char) (start stop : Int) :
    Quiet (method.slice cs start stop) fun operand => operand.isFlat := by
  rw [slice]
  split
  · exact .unresolved _ rfl
  · exact .unresolved _ rfl
  · split
    · exact .pure rfl
    · exact .unresolved _ rfl

theorem apply_quiet (method : TextMethod) (call : Call) (s : String) (args : List Value)
    (hadmits : method.arity.admits args.length) :
    Quiet (method.apply call s args) fun operand => operand.isFlat := by
  have hnone : args = [] → method.arity.least = 0 := by
    rintro rfl
    simpa [Arity.admits] using (Bool.and_eq_true_iff.mp hadmits).1
  cases method with
  | trim | trimLeft | trimRight => exact (trimmed_quiet _ args).bind fun c _ => .pure rfl
  | toUpperCase | toLowerCase | length => exact .pure rfl
  | substring =>
    cases args with
    | nil => exact absurd (hnone rfl) (by decide)
    | cons start rest =>
      cases rest with
      | nil => exact (call.integer_quiet start).bind fun start _ => slice_quiet _ _ _ _
      | cons stop rest =>
        refine (call.integer_quiet start).bind fun start _ => ?_
        exact (call.integer_quiet stop).bind fun stop _ => slice_quiet _ _ _ _
  | indexOf =>
    cases args with
    | nil => exact absurd (hnone rfl) (by decide)
    | cons needle rest =>
      refine (text_quiet _ needle).bind fun needle _ => ?_
      cases rest with
      | nil =>
        refine (Quiet.pure (p := fun _ => True) trivial).bind fun start _ => ?_
        dsimp only
        cases indexFrom? s.toList needle.toList (max start 0) <;> exact .pure rfl
      | cons start rest =>
        refine (call.integer_quiet start).bind fun start _ => ?_
        dsimp only
        cases indexFrom? s.toList needle.toList (max start 0) <;> exact .pure rfl
  | startsWith | endsWith | equals | equalsIgnoreCase =>
    cases args with
    | nil => exact absurd (hnone rfl) (by decide)
    | cons other rest => exact .pure rfl
  | «matches» =>
    cases args with
    | nil => exact absurd (hnone rfl) (by decide)
    | cons pattern rest =>
      have hpattern : Quiet (do return Operand.ofBool (← matchesWhole (← text .matches pattern) s))
          fun operand => operand.isFlat :=
        (text_quiet _ pattern).bind fun pattern _ =>
          (matchesWhole_quiet pattern s).bind fun _ _ => .pure rfl
      cases pattern with
      | null => exact .pure rfl
      | _ => exact hpattern
  | charAt =>
    cases args with
    | nil => exact absurd (hnone rfl) (by decide)
    | cons index rest =>
      refine (call.integer_quiet index).bind fun index _ => ?_
      split
      · exact .pure rfl
      · exact .unresolved _ rfl
  | concat =>
    cases args with
    | nil => exact absurd (hnone rfl) (by decide)
    | cons suffix rest => exact (text_quiet _ suffix).bind fun suffix _ => .pure rfl

theorem evaluate_safe (method : TextMethod) (call : Call) (receiver : Value)
    (hargs : ∀ argument ∈ call.args, argument.Safe raised) :
    Safe raised (method.evaluate call receiver) := by
  refine (call.checkCount_quiet _).ensures.bind fun _ hadmits => ?_
  cases receiver.string? with
  | none => exact Ensures.fail trivial
  | some s =>
    refine (Argument.values_ensures hargs).bind fun values hvalues => ?_
    cases values with
    | none => exact Safe.pure _
    | some values =>
      rw [← hvalues values rfl] at hadmits
      exact (method.apply_quiet call s values hadmits).safe

end TextMethod

/-! ### Methods of a program -/

namespace Script

variable {n : Nat}

/-- An error that is a script's own: one with which it may end when no argument has ended with it.
-/
inductive Raises (error : EvalError) : Script n → Prop where
  | fail : Raises error (.fail error)
  | warn (warning : Warning) {next : Script n} (h : Raises error next) :
    Raises error (.warn warning next)
  | operand (index : Fin n) {next : Operand → Script n} (operand : Operand)
    (h : Raises error (next operand)) : Raises error (.operand index next)
  | member (index : Fin n) (candidates : List Value) {next : Operand → Script n}
    (operand : Operand) (h : Raises error (next operand)) :
    Raises error (.member index candidates next)
  | evaluate (index : Fin n) {next : Except EvalError Resolution → Script n}
    (outcome : Except EvalError Resolution) (hother : outcome ≠ .error error)
    (h : Raises error (next outcome)) : Raises error (.evaluate index next)

theorem run_safe {argument : Fin n → Argument} (script : Script n)
    (hraised : ∀ error, script.Raises error → error.Warranted ∨ raised error)
    (hargs : ∀ index, (argument index).Safe raised) : Safe raised (script.run argument) := by
  induction script with
  | answer operand => exact Safe.pure operand
  | fail error => exact fun _ => ⟨List.suffix_refl _, hraised error .fail⟩
  | warn warning next ih =>
    exact (Safe.warn warning).bind fun _ => ih fun error h => hraised error (.warn warning h)
  | operand index next ih =>
    refine (Argument.operand_safe (hargs index)).bind fun operand => ?_
    exact ih operand fun error h => hraised error (.operand index operand h)
  | member index candidates next ih =>
    refine (Argument.member_safe (hargs index) candidates).bind fun operand => ?_
    exact ih operand fun error h => hraised error (.member index candidates operand h)
  | evaluate index next ih =>
    refine (Argument.evaluate_ensures (hargs index)).bind fun outcome houtcome => ?_
    refine ih outcome fun error h => ?_
    -- An error of the argument is accounted for already.
    by_cases hother : outcome = .error error
    · exact houtcome error hother
    · exact hraised error (.evaluate index outcome hother h)

end Script

namespace Method

/-- An error with which a method of the program may end: whatever script it follows, the error is
the script's own. -/
def Raises (error : EvalError) : Method → Prop
  | custom method => ∀ scripts, method.Follows scripts →
      ∃ name receiver n, (scripts name receiver n).Raises error
  | _ => False

theorem custom_safe {method : CustomMethod} (hmethod : method.EvaluatesArguments)
    (hraised : ∀ error, (custom method).Raises error → raised error) (call : Call)
    (receiver : Value) (hargs : ∀ argument ∈ call.args, argument.Safe raised) :
    Safe raised (method.evaluate call receiver) := by
  refine Safe.of_each fun error => ?_
  obtain ⟨scripts, hscripts, hown⟩ : ∃ scripts, method.Follows scripts ∧
      ∀ name receiver n, (scripts name receiver n).Raises error → raised error := by
    by_cases hraises : (custom method).Raises error
    · obtain ⟨scripts, hscripts⟩ := hmethod
      exact ⟨scripts, hscripts, fun _ _ _ _ => hraised error hraises⟩
    · obtain ⟨scripts, hraises⟩ := not_forall.mp hraises
      obtain ⟨hscripts, hnone⟩ := Classical.not_imp.mp hraises
      exact ⟨scripts, hscripts, fun name receiver n h => absurd ⟨name, receiver, n, h⟩ hnone⟩
  rw [hscripts call]
  refine Script.run_safe _ (fun other hother => .inr ?_) fun index =>
    (hargs _ (List.get_mem call.args index)).mono fun other hother _ => hother
  rintro rfl
  exact hown _ _ _ hother

theorem evaluate_safe (method : Method) (hmethod : method.EvaluatesArguments)
    (hraised : ∀ error, method.Raises error → raised error)
    (call : Call) (receiver : Value) (hargs : ∀ argument ∈ call.args, argument.Safe raised) :
    Safe raised (method.evaluate call receiver) := by
  cases method with
  | text method => exact method.evaluate_safe call receiver hargs
  | collection method => exact method.evaluate_safe call receiver hargs
  | map method => exact method.evaluate_safe call receiver hargs
  | math function => exact function.evaluate_safe call hargs
  | number method => exact (method.evaluate_quiet call receiver).safe
  | identity => exact evaluateIdentity_safe call receiver
  | identityOf => exact evaluateIdentityOf_safe call hargs
  | custom method => exact custom_safe hmethod hraised call receiver hargs

end Method

end ObjectQuery
