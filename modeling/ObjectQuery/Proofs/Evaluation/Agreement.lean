import ObjectQuery.Evaluation
import ObjectQuery.Proofs.Evaluation.Outcome
import ObjectQuery.Proofs.Value.Renaming

/-!
Steps that agree: from contexts that correspond they come to corresponding results, up to the names
of object instances, record the same and leave their contexts as they were. A step that agrees with
itself is one whose result depends on its context and its supply alone.
-/

namespace ObjectQuery

/-- The operand with the instances of its value renamed. -/
def Operand.rename (ρ : InstanceId → InstanceId) : Operand → Operand
  | .value v => .value (v.rename ρ)
  | .unresolved => .unresolved

@[simp] theorem Operand.rename_id (operand : Operand) : operand.rename id = operand := by
  cases operand <;> simp [rename]

@[simp] theorem Operand.rename_ofBool (ρ : InstanceId → InstanceId) (b : Bool) :
    (Operand.ofBool b).rename ρ = .ofBool b := rfl

@[simp] theorem Operand.isUnresolved_rename (ρ : InstanceId → InstanceId) (operand : Operand) :
    (operand.rename ρ).isUnresolved = operand.isUnresolved := by
  cases operand <;> rfl

@[simp] theorem Operand.isTrue_rename (ρ : InstanceId → InstanceId) (operand : Operand) :
    (operand.rename ρ).isTrue = operand.isTrue := by
  cases operand with
  | value v => cases v <;> rfl
  | unresolved => rfl

def Unbound.rename (ρ : InstanceId → InstanceId) (missing : Unbound) : Unbound :=
  ⟨missing.name, missing.candidates.map (List.map (Value.rename ρ))⟩

@[simp] theorem Unbound.rename_id (missing : Unbound) : missing.rename id = missing := by
  simp [rename]

def Halt.rename (ρ : InstanceId → InstanceId) : Halt → Halt
  | .unbound missing => .unbound (missing.rename ρ)
  | .fatal error => .fatal error

@[simp] theorem Halt.rename_id (halt : Halt) : halt.rename id = halt := by
  cases halt <;> simp [rename]

namespace Resolution

def rename (ρ : InstanceId → InstanceId) : Resolution → Resolution
  | resolved operand => resolved (operand.rename ρ)
  | unbound missing => unbound (missing.rename ρ)

@[simp] theorem rename_id (resolution : Resolution) : resolution.rename id = resolution := by
  cases resolution <;> simp [rename]

/-- How the result of a visit shows outside. -/
def ofResult : Except Halt Operand → Except EvalError Resolution
  | .ok operand => .ok (resolved operand)
  | .error (.unbound missing) => .ok (unbound missing)
  | .error (.fatal error) => .error error

end Resolution

/-- The name after so many objects have been made. -/
def InstanceId.advance (id : InstanceId) (made : Nat) : InstanceId :=
  ⟨id.stage, id.turn, id.serial + made⟩

theorem InstanceId.advance_advance (id : InstanceId) (made more : Nat) :
    (id.advance made).advance more = id.advance (made + more) := by
  simp [advance, Nat.add_assoc]

/-- In what two evaluations correspond. -/
structure Agreement where
  /-- The names that the instances of the first have in the second. -/
  rename : InstanceId → InstanceId
  injective : Function.Injective rename
  /-- The variables that both may meet. -/
  names : String → Prop
  /-- Whether both may take aggregates. -/
  aggregates : Prop

namespace Agreement

/-- Equality, for evaluations that meet the given variables. -/
def refl (names : String → Prop) : Agreement := ⟨id, Function.injective_id, names, True⟩

/-- Contexts that give corresponding values to all names that count. -/
structure Contexts (A : Agreement) (context context' : Context) : Prop where
  candidateName : context'.candidateName = context.candidateName
  parameter : ∀ name, context'.parameter name = (context.parameter name).rename A.rename
  state : ∀ name, context'.state.get? name = (context.state.get? name).map (.rename A.rename)
  binding : ∀ name, A.names name →
    context'.binding? name = (context.binding? name).map (.rename A.rename)
  resultSet : A.aggregates →
    context'.resultSet = context.resultSet.map (List.map (.rename A.rename))

/-- The objects made from here on get corresponding names. -/
def Supplies (A : Agreement) (supply supply' : InstanceId) : Prop :=
  ∀ made, A.rename (supply.advance made) = supply'.advance made

/-- The next so many objects get corresponding names. -/
def SuppliesNext (A : Agreement) (made : Nat) (supply supply' : InstanceId) : Prop :=
  ∀ index < made, A.rename (supply.advance index) = supply'.advance index

variable {A : Agreement} {context context' : Context} {supply supply' : InstanceId}

theorem Contexts.refl (names : String → Prop) (context : Context) :
    (Agreement.refl names).Contexts context context := by
  constructor <;> simp [Agreement.refl]

theorem Supplies.refl (names : String → Prop) (supply : InstanceId) :
    (Agreement.refl names).Supplies supply supply := fun _ => rfl

theorem Supplies.next (h : A.Supplies supply supply') (made : Nat) :
    A.SuppliesNext made supply supply' := fun index _ => h index

theorem SuppliesNext.rename_eq (h : A.SuppliesNext 1 supply supply') : A.rename supply = supply' :=
  h 0 Nat.one_pos

theorem SuppliesNext.first {made more : Nat} (h : A.SuppliesNext (made + more) supply supply') :
    A.SuppliesNext made supply supply' :=
  fun index hindex => h index (Nat.lt_add_right more hindex)

theorem SuppliesNext.rest {made more : Nat} (h : A.SuppliesNext (made + more) supply supply') :
    A.SuppliesNext more (supply.advance made) (supply'.advance made) := by
  intro index hindex
  rw [InstanceId.advance_advance, InstanceId.advance_advance]
  exact h (made + index) (Nat.add_lt_add_left hindex made)

theorem Contexts.candidate? (h : A.Contexts context context') :
    context'.candidate? = context.candidate?.map (.rename A.rename) := by
  rw [Context.candidate?, h.candidateName, h.state]
  rfl

/-- What a result of the first evaluation is in the second. -/
def image {α β : Type} (A : Agreement) (f : α → β) : Except Halt α → Except Halt β
  | .ok a => .ok (f a)
  | .error halt => .error (halt.rename A.rename)

/-- A stop is on a variable that may be met and has no value. -/
def Stops {α : Type} (A : Agreement) (context : Context) (result : Except Halt α) : Prop :=
  ∀ missing, result = .error (.unbound missing) →
    A.names missing.name ∧ context.binding? missing.name = none

/-- If the objects that the first step makes get corresponding names, the second step gives what `f`
makes of the result of the first, and makes as many objects. -/
def Mirrors {α β : Type} (A : Agreement) (context context' : Context) (f : α → β) (first : Eval α)
    (second : Eval β) : Prop :=
  ∀ supply supply', ∃ result trace made,
    Settles first context supply ⟨result, context, trace, supply.advance made⟩ ∧
    (A.SuppliesNext made supply supply' →
      Settles second context' supply'
        ⟨A.image f result, context', trace, supply'.advance made⟩) ∧
    A.Stops context result

namespace Mirrors

variable {α β γ δ : Type} {f : α → β} {g : γ → δ} {first : Eval α} {second : Eval β}

theorem settles (h : A.Mirrors context context' f first second)
    (hs : A.Supplies supply supply') :
    ∃ result trace made,
      Settles first context supply ⟨result, context, trace, supply.advance made⟩ ∧
      Settles second context' supply' ⟨A.image f result, context', trace, supply'.advance made⟩ ∧
      A.Stops context result := by
  obtain ⟨result, trace, made, hfirst, hsecond, hstops⟩ := h supply supply'
  exact ⟨result, trace, made, hfirst, hsecond (hs.next made), hstops⟩

theorem pure {a : α} {b : β} (h : b = f a) :
    A.Mirrors context context' f (pure a) (pure b) := by
  intro supply supply'
  subst h
  exact ⟨.ok a, .empty, 0, .pure a, fun _ => .pure (f a), by simp [Stops]⟩

theorem bind {next : α → Eval γ} {next' : β → Eval δ}
    (h : A.Mirrors context context' f first second)
    (hnext : ∀ a, A.Mirrors context context' g (next a) (next' (f a))) :
    A.Mirrors context context' g (first >>= next) (second >>= next') := by
  intro supply supply'
  obtain ⟨result, trace, made, hfirst, hsecond, hstops⟩ := h supply supply'
  cases result with
  | ok a =>
    obtain ⟨result, trace', more, hnext, hnext', hstops⟩ :=
      hnext a (supply.advance made) (supply'.advance made)
    rw [InstanceId.advance_advance] at hnext hnext'
    exact ⟨result, trace ++ trace', made + more, hfirst.bind hnext,
      fun hs => (hsecond hs.first).bind (hnext' hs.rest), hstops⟩
  | error halt =>
    refine ⟨.error halt, trace, made, hfirst.bind_error, fun hs => (hsecond hs).bind_error, ?_⟩
    intro missing hmissing
    exact hstops missing (by simpa using hmissing)

theorem fail (error : EvalError) :
    A.Mirrors context context' f (Eval.fail error) (Eval.fail error) := by
  intro supply supply'
  exact ⟨.error (.fatal error), .empty, 0, .throw _, fun _ => .throw _, by simp [Stops]⟩

theorem ofExcept {result : Except EvalError α} {result' : Except EvalError β}
    (h : result' = result.map f) :
    A.Mirrors context context' f (Eval.ofExcept result) (Eval.ofExcept result') := by
  subst h
  cases result with
  | ok a => exact pure rfl
  | error error => exact fail error

theorem stopOn {name : String} (candidates : Option (List Value)) (hname : A.names name)
    (hbinding : context.binding? name = none) :
    A.Mirrors context context' f (Eval.stopOn name candidates)
      (Eval.stopOn name (candidates.map (List.map (.rename A.rename)))) := by
  intro supply supply'
  refine ⟨.error (.unbound ⟨name, candidates⟩), .empty, 0, .throw _, fun _ => .throw _, ?_⟩
  rintro missing hmissing
  obtain rfl : (⟨name, candidates⟩ : Unbound) = missing := by simpa using hmissing
  exact ⟨hname, hbinding⟩

theorem warn (warning : Warning) :
    A.Mirrors context context' id (Eval.warn warning) (Eval.warn warning) := by
  intro supply supply'
  refine ⟨.ok (), ⟨[warning], 0⟩, 0, ⟨[], ?_⟩, fun _ => ⟨[], ?_⟩, by simp [Stops]⟩
  all_goals
    intro stack trace
    rw [← Trace.warn_eq_append]
    rfl

theorem unresolved (warning : Warning) :
    A.Mirrors context context' (Operand.rename A.rename) (Eval.unresolved warning)
      (Eval.unresolved warning) :=
  (warn warning).bind fun _ => pure rfl

theorem fresh : A.Mirrors context context' A.rename Eval.fresh Eval.fresh := by
  intro supply supply'
  refine ⟨.ok supply, .empty, 1, ⟨[], fun stack trace => ?_⟩,
    fun hs => ⟨[], fun stack trace => ?_⟩, by simp [Stops]⟩
  · rw [Trace.append_empty]
    rfl
  · simp only [image, hs.rename_eq, Trace.append_empty]
    rfl

theorem readContext {next : Context → Eval α} {next' : Context → Eval β}
    (h : A.Mirrors context context' f (next context) (next' context')) :
    A.Mirrors context context' f (Eval.context >>= next) (Eval.context >>= next') := h

theorem countLoad {value : Value} (h : value.rename A.rename = value) :
    A.Mirrors context context' (Value.rename A.rename)
      (do
        modify fun machine : Machine => { machine with trace := machine.trace.countLoad }
        return value)
      (do
        modify fun machine : Machine => { machine with trace := machine.trace.countLoad }
        return value) := by
  intro supply supply'
  refine ⟨.ok value, ⟨[], 1⟩, 0, ⟨[], ?_⟩, fun _ => ⟨[], ?_⟩, by simp [Stops]⟩
  all_goals
    intro stack trace
    simp only [image, h, ← Trace.countLoad_eq_append]
    rfl

end Mirrors

end Agreement

theorem Resolution.ofResult_image (A : Agreement) (result : Except Halt Operand) :
    ofResult (A.image (Operand.rename A.rename) result) =
      (ofResult result).map (rename A.rename) := by
  cases result with
  | ok operand => rfl
  | error halt => cases halt <;> rfl

/-! ### Operands on the stack -/

theorem Eval.push_apply (operand : Operand) (machine : Machine) :
    Eval.push operand machine = .ok () { machine with stack := operand :: machine.stack } :=
  rfl

theorem Settles.completion_resolve {operand : Eval Operand} {context last : Context}
    {supply supply' : InstanceId} {result : Except Halt Operand} {trace : Trace}
    (h : Settles operand context supply ⟨result, last, trace, supply'⟩) (stack : List Operand)
    (before : Trace) :
    completion (Eval.resolve do Eval.push (← operand)) ⟨context, stack, before, supply⟩ =
      (Resolution.ofResult result, ⟨last, stack, before ++ trace, supply'⟩) := by
  obtain ⟨leftover, h⟩ := h
  simp only [completion, Eval.resolve, Bind.bind, EStateM.bind, h]
  cases result with
  | ok value =>
    simp [Eval.push_apply, Machine.truncate, Machine.depth, Resolution.ofResult]
  | error halt => cases halt <;> simp [Machine.truncate, Machine.depth, Resolution.ofResult]

@[simp] theorem operandOf_eq (part : Eval Operand) : operandOf part = part := by
  funext machine
  simp only [operandOf, Bind.bind, EStateM.bind]
  cases part machine <;> rfl

theorem Argument.operand_of_visit {argument : Argument} {part : Eval Operand}
    (h : argument.visit = do Eval.push (← part)) : argument.operand = part := by
  have heq : argument.operand = operandOf part := by
    rw [operand, h, bind_assoc]
    rfl
  rw [heq, operandOf_eq]

theorem Argument.evaluate_apply (argument : Argument) (machine : Machine) :
    argument.evaluate machine =
      .ok (completion (Eval.resolve argument.visit) machine).1
        (completion (Eval.resolve argument.visit) machine).2 := by
  rw [evaluate, completion]
  cases Eval.resolve argument.visit machine <;> rfl

theorem Argument.evaluate_settles {argument : Argument} {part : Eval Operand}
    {context last : Context} {supply supply' : InstanceId} {result : Except Halt Operand}
    {trace : Trace} (hvisit : argument.visit = do Eval.push (← part))
    (h : Settles part context supply ⟨result, last, trace, supply'⟩) :
    Settles argument.evaluate context supply
      ⟨.ok (Resolution.ofResult result), last, trace, supply'⟩ :=
  ⟨[], fun stack before => by rw [evaluate_apply, hvisit, h.completion_resolve]⟩

theorem popMany_apply (n : Nat) (machine : Machine) :
    Eval.popMany n machine =
      if n ≤ machine.depth then
        .ok (machine.stack.take n).reverse { machine with stack := machine.stack.drop n }
      else .error (.fatal .stackUnderflow) machine := by
  have hrun : Eval.popMany n machine = (if n ≤ machine.depth then (do
      set { machine with stack := machine.stack.drop n }
      return (machine.stack.take n).reverse : Eval (List Operand)) else
        Eval.fail .stackUnderflow) machine := rfl
  rw [hrun]
  split <;> rfl

end ObjectQuery
