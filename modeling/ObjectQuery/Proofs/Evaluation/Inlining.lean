import ObjectQuery.Proofs.Evaluation.Operation

/-!
Computations of which the first has the value of a parameter from its context and the second has it
without. They end alike: with the same result on machines that are the same but for the parameter,
or with the same halt, up to the name of a shape in two messages.
-/

namespace ObjectQuery

/-- Errors of one kind. They are equal, but the operand that a negation or a complement refuses is a
parameter in the first and a literal in the second. -/
inductive EvalError.Alike : EvalError → EvalError → Prop where
  | refl (error : EvalError) : Alike error error
  | negation : Alike (.unsupportedNegation "parameter") (.unsupportedNegation "literal")
  | complement : Alike (.unsupportedComplement "parameter") (.unsupportedComplement "literal")

inductive Halt.Alike : Halt → Halt → Prop where
  | unbound (missing : Unbound) : Alike (.unbound missing) (.unbound missing)
  | fatal {error error' : EvalError} (h : error.Alike error') : Alike (.fatal error) (.fatal error')

theorem Halt.Alike.refl (halt : Halt) : halt.Alike halt := by
  cases halt with
  | unbound missing => exact .unbound missing
  | fatal error => exact .fatal (.refl error)

/-- The machine with a value for a parameter. -/
def Machine.given (name : String) (value : Value) (machine : Machine) : Machine :=
  machine.mapContext (·.setParameter name value)

/-- The same resolution, or errors of one kind. -/
inductive Resolution.Alike : Except EvalError Resolution → Except EvalError Resolution → Prop where
  | ok (resolution : Resolution) : Alike (.ok resolution) (.ok resolution)
  | error {error error' : EvalError} (h : error.Alike error') : Alike (.error error) (.error error')

variable {name : String} {value : Value} {α β : Type}

/-- The ends of two computations. What an interrupted one leaves on the stack is of no account. -/
inductive EndAlike (name : String) (value : Value) :
    EStateM.Result Halt Machine α → EStateM.Result Halt Machine α → Prop where
  | ok (a : α) (after : Machine) :
    EndAlike name value (.ok a (after.given name value)) (.ok a after)
  | error {halt halt' : Halt} {after after' : Machine} (h : halt.Alike halt')
    (htrace : after.trace = after'.trace) (hsupply : after.supply = after'.supply) :
    EndAlike name value (.error halt after) (.error halt' after')

/-- The computations end alike where the first is given the parameter. -/
def Inlines (name : String) (value : Value) (first second : Eval α) : Prop :=
  ∀ machine, EndAlike name value (first (machine.given name value)) (second machine)

namespace Inlines

variable {first second : Eval α}

theorem pure (a : α) : Inlines name value (pure a) (pure a) := fun machine => .ok a machine

theorem halt {halt halt' : Halt} (h : halt.Alike halt') :
    Inlines name value (throw halt : Eval α) (throw halt') := fun _ => .error h rfl rfl

theorem fail {error error' : EvalError} (h : error.Alike error') :
    Inlines name value (Eval.fail error : Eval α) (Eval.fail error') := halt (.fatal h)

theorem stopOn (missing : String) (candidates : Option (List Value)) :
    Inlines name value (Eval.stopOn missing candidates : Eval α) (Eval.stopOn missing candidates) :=
  halt (.unbound _)

theorem bind {next next' : α → Eval β} (h : Inlines name value first second)
    (hnext : ∀ a, Inlines name value (next a) (next' a)) :
    Inlines name value (first >>= next) (second >>= next') := by
  intro machine
  have h := h machine
  simp only [Bind.bind, EStateM.bind]
  generalize first (machine.given name value) = firstEnd at h ⊢
  generalize second machine = secondEnd at h ⊢
  cases h with
  | ok a after => exact hnext a after
  | error h htrace hsupply => exact .error h htrace hsupply

theorem ofExcept (result : Except EvalError α) :
    Inlines name value (Eval.ofExcept result) (Eval.ofExcept result) := by
  cases result with
  | ok a => exact pure a
  | error error => exact fail (.refl error)

theorem readContext {next next' : Context → Eval α}
    (h : ∀ context, Inlines name value (next (context.setParameter name value)) (next' context)) :
    Inlines name value (Eval.context >>= next) (Eval.context >>= next') :=
  fun machine => h machine.context machine

theorem modifyContext {f : Context → Context}
    (h : ∀ context, f (context.setParameter name value) = (f context).setParameter name value) :
    Inlines name value (Eval.modifyContext f) (Eval.modifyContext f) := by
  intro machine
  have hgiven : (machine.given name value).mapContext f = (machine.mapContext f).given name value :=
    congrArg (fun context => { machine with context }) (h machine.context)
  change EndAlike name value (.ok () ((machine.given name value).mapContext f))
    (.ok () (machine.mapContext f))
  rw [hgiven]
  exact .ok () _

theorem push (operand : Operand) :
    Inlines name value (Eval.push operand) (Eval.push operand) :=
  fun machine => .ok () { machine with stack := operand :: machine.stack }

theorem pop : Inlines name value Eval.pop Eval.pop := by
  rintro ⟨context, stack, trace, supply⟩
  cases stack with
  | nil => exact .error (.refl _) rfl rfl
  | cons operand rest => exact .ok operand ⟨context, rest, trace, supply⟩

theorem popMany (n : Nat) : Inlines name value (Eval.popMany n) (Eval.popMany n) := by
  intro machine
  have hdepth : (machine.given name value).depth = machine.depth := rfl
  rw [popMany_apply, popMany_apply, hdepth]
  split
  · exact .ok _ { machine with stack := machine.stack.drop n }
  · exact .error (.refl _) rfl rfl

theorem restoring (h : Inlines name value first second) :
    Inlines name value (Eval.restoring first) (Eval.restoring second) := by
  intro machine
  have h := h machine
  have hcandidate : (machine.given name value).context.candidate? = machine.context.candidate? :=
    rfl
  have hdepth : (machine.given name value).depth = machine.depth := rfl
  have hrestore : ∀ context : Context,
      (context.setParameter name value).restoreCandidate machine.context.candidate? =
        (context.restoreCandidate machine.context.candidate?).setParameter name value := by
    intro context
    cases machine.context.candidate? <;> rfl
  simp only [Eval.restoring, hcandidate, hdepth]
  generalize first (machine.given name value) = firstEnd at h ⊢
  generalize second machine = secondEnd at h ⊢
  cases h with
  | ok a after =>
    have hleave : ((after.given name value).truncate machine.depth).mapContext
        (·.restoreCandidate machine.context.candidate?) =
          ((after.truncate machine.depth).mapContext
            (·.restoreCandidate machine.context.candidate?)).given name value :=
      congrArg (fun context => { after.truncate machine.depth with context })
        (hrestore after.context)
    simp only [hleave]
    exact .ok a _
  | error h htrace hsupply => exact .error h htrace hsupply

theorem of_mirrors {f : α → α} {run run' : Eval α} (hf : ∀ a, f a = a) (hrun : run' = run)
    (h : ∀ context context',
      (Agreement.refl fun _ => True).Mirrors context context' f run run') :
    Inlines name value run run := by
  subst hrun
  rintro ⟨context, stack, trace, supply⟩
  obtain ⟨result, more, made, ⟨_, hfirst⟩, ⟨_, hsecond⟩, -⟩ :=
    (h (context.setParameter name value) context).settles (.refl _ supply)
  have hgiven : Machine.given name value ⟨context, stack, trace, supply⟩ =
      ⟨context.setParameter name value, stack, trace, supply⟩ := rfl
  rw [hgiven, hfirst, hsecond]
  cases result with
  | ok a =>
    simp only [Agreement.image, hf]
    exact .ok a ⟨context, stack, trace ++ more, supply.advance made⟩
  | error halt =>
    have hhalt : halt.rename (Agreement.refl fun _ => True).rename = halt := halt.rename_id
    simp only [Agreement.image, hhalt]
    exact .error (.refl halt) rfl rfl

theorem unresolved (warning : Warning) :
    Inlines name value (Eval.unresolved warning) (Eval.unresolved warning) :=
  of_mirrors Operand.rename_id rfl fun _ _ => .unresolved warning

theorem warn (warning : Warning) : Inlines name value (Eval.warn warning) (Eval.warn warning) :=
  of_mirrors id_eq rfl fun _ _ => .warn warning

theorem resolve {first second : Eval Unit} (h : Inlines name value first second)
    (machine : Machine) :
    let given := completion (Eval.resolve first) (machine.given name value)
    let without := completion (Eval.resolve second) machine
    Resolution.Alike given.1 without.1 ∧ given.2.trace = without.2.trace ∧
      given.2.supply = without.2.supply := by
  have h := h machine
  have hdepth : (machine.given name value).depth = machine.depth := rfl
  simp only [completion, Eval.resolve, hdepth]
  generalize first (machine.given name value) = firstEnd at h ⊢
  generalize second machine = secondEnd at h ⊢
  cases h with
  | ok _ after =>
    have hsize : (after.given name value).depth = after.depth := rfl
    have hstack : (after.given name value).stack = after.stack := rfl
    simp only [hsize, hstack]
    generalize after.depth - machine.depth = size
    generalize after.stack = operands
    -- Only a single operand is a result.
    obtain _ | _ | size := size
    · exact ⟨.error (.refl _), rfl, rfl⟩
    · cases operands with
      | nil => exact ⟨.error (.refl _), rfl, rfl⟩
      | cons operand rest => exact ⟨.ok _, rfl, rfl⟩
    · exact ⟨.error (.refl _), rfl, rfl⟩
  | error hhalt htrace hsupply =>
    cases hhalt with
    | unbound missing => exact ⟨.ok _, htrace, hsupply⟩
    | fatal herror => exact ⟨.error herror, htrace, hsupply⟩

end Inlines

/-- Resolved as a whole, a visit gives the context and the operands back, however it ends. -/
def Eval.Keeps (visit : Eval Unit) : Prop :=
  ∀ machine, ∃ trace supply, (completion (Eval.resolve visit) machine).2 =
    ⟨machine.context, machine.stack, trace, supply⟩

end ObjectQuery
