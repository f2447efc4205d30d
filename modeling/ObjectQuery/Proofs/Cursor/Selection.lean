import Mathlib.Data.List.Basic
import Mathlib.Data.List.Perm.Subperm
import ObjectQuery.Proofs.Cursor.Work
import ObjectQuery.Proofs.Evaluation.Resolution

/-!
The search for values of variables. A candidate is kept if and only if the condition is true under
some bindings that its own stops ask for and offer, no more of them than variables are declared.
-/

namespace ObjectQuery

namespace Context

/-- The context with more variables bound, one after another. -/
def bindAll (context : Context) (bindings : List (String × Value)) : Context :=
  bindings.foldl (fun context binding => context.setVariable binding.1 binding.2) context

theorem binding?_setVariable_self (context : Context) (name : String) (value : Value) :
    ((context.setVariable name value).binding? name).isSome := by
  simp only [binding?, setVariable, Bindings.get?_insert_self]
  cases context.state.get? name <;> rfl

theorem binding?_setVariable_of_ne (context : Context) {name other : String} (value : Value)
    (h : name ≠ other) :
    (context.setVariable name value).binding? other = context.binding? other := by
  simp only [binding?, setVariable, Bindings.get?_insert_of_ne _ value h]

theorem setVariable_setVariable (context : Context) (name : String) (value other : Value) :
    (context.setVariable name value).setVariable name other = context.setVariable name other := by
  simp [setVariable, Bindings.insert_insert]

theorem clearVariable_setVariable {context : Context} {name : String}
    (h : context.binding? name = none) (value : Value) :
    (context.setVariable name value).clearVariable name = context := by
  have hnone : context.assignment.get? name = none := (Option.or_eq_none_iff.mp h).2
  simp [setVariable, clearVariable, Bindings.erase_insert_of_get?_eq_none value hnone]

theorem clearVariable_eq_self {context : Context} {name : String}
    (h : context.binding? name = none) : context.clearVariable name = context := by
  have hnone : context.assignment.get? name = none := (Option.or_eq_none_iff.mp h).2
  simp [clearVariable, Bindings.erase_of_get?_eq_none hnone]

/-- The context, or the context with a value for the variable. -/
def Rebinds (context : Context) (name : String) (rebound : Context) : Prop :=
  rebound = context ∨ ∃ value, rebound = context.setVariable name value

namespace Rebinds

variable {context rebound : Context} {name : String}

theorem clearVariable (h : context.Rebinds name rebound) (hname : context.binding? name = none) :
    rebound.clearVariable name = context := by
  rcases h with rfl | ⟨value, rfl⟩
  · exact clearVariable_eq_self hname
  · exact clearVariable_setVariable hname value

theorem setVariable (h : context.Rebinds name rebound) (value : Value) :
    rebound.setVariable name value = context.setVariable name value := by
  rcases h with rfl | ⟨other, rfl⟩
  · rfl
  · exact context.setVariable_setVariable name other value

end Rebinds

end Context

namespace Cursor

/-- Whether so many variables may have values. -/
def Allowed (declared : List String) (bound : Nat) : Prop :=
  declared = [] ∨ bound ≤ declared.length

/-- What evaluating a condition comes to when so many of its variables got values. -/
def roundResult (env : Environment) (condition : Expr) (stage bound : Nat) (context : Context) :
    Except EvalError Resolution :=
  condition.resolution env context (stageSupply stage bound)

/-- The bindings follow the stops of the condition: each variable is the one that the condition
stops on under the bindings before, and its value is among those offered there. -/
def Offered (env : Environment) (condition : Expr) (stage : Nat) :
    (bound : Nat) → Context → List (String × Value) → Prop
  | _, _, [] => True
  | bound, context, (name, value) :: rest =>
    (∃ values, roundResult env condition stage bound context =
      .ok (.unbound ⟨name, some values⟩) ∧ value ∈ values) ∧
    Offered env condition stage (bound + 1) (context.setVariable name value) rest

/-- Some bindings that may be made and are offered lead the condition to such a result. -/
def Leads (env : Environment) (condition : Expr) (declared : List String) (stage bound : Nat)
    (context : Context) (ends : Except EvalError Resolution → Prop) : Prop :=
  ∃ bindings, Allowed declared (bound + bindings.length) ∧
    Offered env condition stage bound context bindings ∧
    ends (roundResult env condition stage (bound + bindings.length) (context.bindAll bindings))

end Cursor

/-- The expression is true. -/
def Expr.Holds (result : Except EvalError Resolution) : Prop :=
  ∃ operand : Operand, result = .ok (.resolved operand) ∧ operand.isTrue

namespace Cursor

variable {env : Environment} {condition : Expr} {declared : List String} {stage : Nat}

theorem Leads.here {bound : Nat} {context : Context} {ends : Except EvalError Resolution → Prop}
    (hallowed : Allowed declared bound) (h : ends (roundResult env condition stage bound context)) :
    Leads env condition declared stage bound context ends :=
  ⟨[], hallowed, trivial, h⟩

theorem leads_iff_of_unbound (declared : List String) {bound : Nat} {context : Context}
    {name : String} {values : List Value} {ends : Except EvalError Resolution → Prop}
    (hresult : roundResult env condition stage bound context = .ok (.unbound ⟨name, some values⟩))
    (hends : ¬ends (.ok (.unbound ⟨name, some values⟩))) :
    Leads env condition declared stage bound context ends ↔
      ∃ value ∈ values,
        Leads env condition declared stage (bound + 1) (context.setVariable name value) ends := by
  constructor
  · rintro ⟨bindings, hallowed, hoffered, hend⟩
    cases bindings with
    | nil => exact absurd (hresult ▸ hend) hends
    | cons binding rest =>
      obtain ⟨⟨values', hvalues, hmem⟩, hrest⟩ := hoffered
      obtain ⟨rfl, rfl⟩ : binding.1 = name ∧ values' = values := by
        have hsame := hvalues.symm.trans hresult
        simpa using hsame
      rw [List.length_cons, Nat.add_comm rest.length, ← Nat.add_assoc] at hallowed hend
      exact ⟨binding.2, hmem, rest, hallowed, hrest, hend⟩
  · rintro ⟨value, hmem, rest, hallowed, hrest, hend⟩
    refine ⟨(name, value) :: rest, ?_, ⟨⟨values, hresult, hmem⟩, hrest⟩, ?_⟩
    · rw [List.length_cons, Nat.add_comm rest.length, ← Nat.add_assoc]
      exact hallowed
    · rw [List.length_cons, Nat.add_comm rest.length, ← Nat.add_assoc]
      exact hend

theorem leads_iff_of_not_offered {bound : Nat} {context : Context}
    {ends : Except EvalError Resolution → Prop} (hallowed : Allowed declared bound)
    (hresult : ∀ name values, roundResult env condition stage bound context ≠
      .ok (.unbound ⟨name, some values⟩)) :
    Leads env condition declared stage bound context ends ↔
      ends (roundResult env condition stage bound context) := by
  refine ⟨?_, Leads.here hallowed⟩
  rintro ⟨bindings, _, hoffered, hend⟩
  cases bindings with
  | nil => exact hend
  | cons binding rest =>
    obtain ⟨⟨values, hvalues, _⟩, _⟩ := hoffered
    exact absurd hvalues (hresult _ _)

theorem leads_iff_of_full {bound : Nat} {context : Context}
    {ends : Except EvalError Resolution → Prop} (hallowed : Allowed declared bound)
    (hfull : mayBind declared bound = false) :
    Leads env condition declared stage bound context ends ↔
      ends (roundResult env condition stage bound context) := by
  refine ⟨?_, Leads.here hallowed⟩
  rintro ⟨bindings, hmore, _, hend⟩
  cases bindings with
  | nil => exact hend
  | cons binding rest =>
    simp only [mayBind, Bool.or_eq_false_iff, decide_eq_false_iff_not] at hfull
    rcases hmore with rfl | hmore
    · simp at hfull
    · rw [List.length_cons] at hmore
      omega

/-- What the search comes to, in terms of the bindings that there are. -/
def Decides (env : Environment) (condition : Expr) (declared : List String) (stage bound : Nat)
    (context : Context) : Except EvalError Bool → Prop
  | .ok b => b = true ↔ Leads env condition declared stage bound context Expr.Holds
  | .error error => Leads env condition declared stage bound context (· = .error error)

/-- How a test may leave its context: as it was, or with more variables bound if it fails. -/
structure Tidy (context : Context) (result : Except EvalError Bool) (last : Context) : Prop where
  kept : ∀ b, result = .ok b → last = context
  cleared : last.clearVariables = context.clearVariables

/-- A test of a context at a stage that is decided as told. -/
def Tests (test : EStateM EvalError Machine Bool) (stage : Nat) (context : Context)
    (decided : Except EvalError Bool → Prop) : Prop :=
  ∀ supply : InstanceId, supply.stage = stage → ∃ result last trace after, after.stage = stage ∧
    Settles test context supply ⟨result, last, trace, after⟩ ∧ Tidy context result last ∧
    decided result

/-- What trying values one after another decides, from what each of them decides. -/
def AnyDecides (decided : Value → Except EvalError Bool → Prop) (values : List Value) :
    Except EvalError Bool → Prop
  | .ok true => ∃ value ∈ values, decided value (.ok true)
  | .ok false => ∀ value ∈ values, decided value (.ok false)
  | .error error => ∃ value ∈ values, decided value (.error error)

theorem AnyDecides.cons {decided : Value → Except EvalError Bool → Prop} {value : Value}
    {rest : List Value} {result : Except EvalError Bool} (hvalue : decided value (.ok false))
    (h : AnyDecides decided rest result) : AnyDecides decided (value :: rest) result := by
  cases result with
  | ok b =>
    cases b with
    | true =>
      obtain ⟨other, hother, h⟩ := h
      exact ⟨other, List.mem_cons_of_mem _ hother, h⟩
    | false => exact List.forall_mem_cons.mpr ⟨hvalue, h⟩
  | error error =>
    obtain ⟨other, hother, h⟩ := h
    exact ⟨other, List.mem_cons_of_mem _ hother, h⟩

theorem anyValue_tests {context : Context} {name : String} {test : EStateM EvalError Machine Bool}
    {decided : Value → Except EvalError Bool → Prop} (hname : context.binding? name = none)
    (htest : ∀ value, Tests test stage (context.setVariable name value) (decided value))
    (values : List Value) :
    Tests (anyValue name test values) stage context (AnyDecides decided values) := by
  -- Between two values the variable still has the earlier one, so the claim is made of both
  -- contexts.
  have hgeneral : ∀ rebound, context.Rebinds name rebound →
      ∀ supply : InstanceId, supply.stage = stage → ∃ result last trace after,
        after.stage = stage ∧
        Settles (anyValue name test values) rebound supply ⟨result, last, trace, after⟩ ∧
        Tidy context result last ∧ AnyDecides decided values result := by
    induction values with
    | nil =>
      intro rebound hrebound supply hsupply
      have hclear := hrebound.clearVariable hname
      exact ⟨.ok false, context, _, supply, hsupply, (Settles.mapContext hclear).bind (.pure false),
        ⟨fun _ _ => rfl, rfl⟩, by simp [AnyDecides]⟩
    | cons value rest ih =>
      intro rebound hrebound supply hsupply
      have hset := hrebound.setVariable value
      obtain ⟨result, last, trace, after, hafter, hrun, htidy, hdecided⟩ :=
        htest value supply hsupply
      rw [anyValue]
      cases result with
      | error error =>
        refine ⟨.error error, last, _, after, hafter,
          (Settles.mapContext hset).bind hrun.bind_error,
          ⟨by simp, htidy.cleared⟩, ?_⟩
        exact ⟨value, by simp, hdecided⟩
      | ok b =>
        obtain rfl := htidy.kept b rfl
        cases b with
        | true =>
          have hclear := Context.clearVariable_setVariable hname value
          refine ⟨.ok true, context, _, after, hafter,
            (Settles.mapContext hset).bind
              (hrun.bind ((Settles.mapContext hclear).bind (.pure true))),
            ⟨fun _ _ => rfl, rfl⟩, value, by simp, hdecided⟩
        | false =>
          obtain ⟨result, last, trace', after, hafter, hrest, htidy, hdecided'⟩ :=
            ih _ (.inr ⟨value, rfl⟩) after hafter
          exact ⟨result, last, _, after, hafter, (Settles.mapContext hset).bind (hrun.bind hrest),
            htidy, .cons hdecided hdecided'⟩
  exact hgeneral context (.inl rfl)

/-- The variables that a search has bound so far: different ones, all of the condition. -/
structure Bound (condition : Expr) (context : Context) (names : List String) : Prop where
  nodup : names.Nodup
  subset : names ⊆ variableNames condition
  isSome : ∀ name ∈ names, (context.binding? name).isSome

theorem Bound.length_le {context : Context} {names : List String}
    (h : Bound condition context names) : names.length ≤ (variableNames condition).length :=
  (h.nodup.subperm h.subset).length_le

theorem Bound.cons [env.registry.EvaluatesArguments] {context : Context} {names : List String}
    {missing : Unbound} (h : Bound condition context names)
    (hresult : roundResult env condition stage names.length context = .ok (.unbound missing))
    (value : Value) :
    Bound condition (context.setVariable missing.name value) (missing.name :: names) := by
  obtain ⟨hmem, hnone⟩ := Expr.unbound_of_resolution hresult
  have hne : ∀ name ∈ names, missing.name ≠ name := by
    rintro name hname rfl
    simpa [hnone] using h.isSome missing.name hname
  refine ⟨List.nodup_cons.mpr ⟨fun hname => hne _ hname rfl, h.nodup⟩,
    List.cons_subset.mpr ⟨hmem, h.subset⟩, fun name hname => ?_⟩
  rcases List.mem_cons.mp hname with rfl | hname
  · exact context.binding?_setVariable_self missing.name value
  · rw [Context.binding?_setVariable_of_ne _ value (hne name hname)]
    exact h.isSome name hname

theorem Decides.of_anyValue {bound : Nat} {context : Context} {name : String}
    {values : List Value} {result : Except EvalError Bool}
    (hresult : roundResult env condition stage bound context = .ok (.unbound ⟨name, some values⟩))
    (h : AnyDecides (fun value => Decides env condition declared stage (bound + 1)
      (context.setVariable name value)) values result) :
    Decides env condition declared stage bound context result := by
  cases result with
  | ok b =>
    cases b with
    | true =>
      obtain ⟨value, hvalue, h⟩ := h
      have hleads := (leads_iff_of_unbound declared hresult
        (by simp [Expr.Holds])).mpr ⟨value, hvalue, h.mp rfl⟩
      exact ⟨fun _ => hleads, fun _ => rfl⟩
    | false =>
      refine ⟨fun hfalse => absurd hfalse (by simp), fun hleads => ?_⟩
      obtain ⟨value, hvalue, hleads⟩ :=
        (leads_iff_of_unbound declared hresult (by simp [Expr.Holds])).mp hleads
      exact (h value hvalue).mpr hleads
  | error error =>
    obtain ⟨value, hvalue, h⟩ := h
    rw [Decides, leads_iff_of_unbound declared hresult (by simp)]
    exact ⟨value, hvalue, h⟩

theorem satisfiedWithin_tests [env.registry.EvaluatesArguments] {rounds : Nat} {names : List String}
    {context : Context} (hbound : Bound condition context names)
    (hrounds : names.length + rounds = (variableNames condition).length + 1)
    (hallowed : Allowed declared names.length) :
    Tests (satisfiedWithin env condition declared rounds names.length) stage context
      (Decides env condition declared stage names.length context) := by
  induction rounds generalizing names context with
  | zero =>
    -- Each round binds another variable of the condition, so the rounds do not run out.
    have := hbound.length_le
    omega
  | succ rounds ih =>
    rintro supply rfl
    obtain ⟨trace, made, hevaluate⟩ :=
      condition.evaluate_settles env context (stageSupply supply.stage names.length)
    have hbegin : Settles (modify fun machine => machine.beginTurn names.length :
        EStateM EvalError Machine Unit) context supply _ := .beginTurn names.length
    rw [satisfiedWithin]
    cases hround : roundResult env condition supply.stage names.length context with
    | error error =>
      rw [← roundResult, hround] at hevaluate
      refine ⟨.error error, context, _, _, ?_, hbegin.bind hevaluate.bind_error, ⟨by simp, rfl⟩, ?_⟩
      · rfl
      · rw [Decides]
        exact .here hallowed hround
    | ok resolution =>
      rw [← roundResult, hround] at hevaluate
      cases resolution with
      | resolved operand =>
        refine ⟨.ok operand.isTrue, context, _, _, ?_,
          hbegin.bind (hevaluate.bind (.pure operand.isTrue)), ⟨fun _ _ => rfl, rfl⟩, ?_⟩
        · rfl
        · rw [Decides, leads_iff_of_not_offered hallowed (by simp [hround]), hround]
          simp [Expr.Holds]
      | unbound missing =>
        obtain ⟨name, candidates⟩ := missing
        cases hfilter : candidates.filter fun _ => mayBind declared names.length with
        | none =>
          -- Nothing is offered, or as many variables have values as are declared.
          have hleads : Leads env condition declared supply.stage names.length context Expr.Holds ↔
              Expr.Holds (roundResult env condition supply.stage names.length context) := by
            cases candidates with
            | none => exact leads_iff_of_not_offered hallowed (by simp [hround])
            | some values => exact leads_iff_of_full hallowed (by simpa using hfilter)
          have hwarn : Settles (do
                modify fun machine => machine.warn (.unboundVariable name)
                return false : EStateM EvalError Machine Bool) context
              ((stageSupply supply.stage names.length).advance made) _ :=
            (Settles.warn _).bind (.pure false)
          refine ⟨.ok false, context, _, _, ?_,
            hbegin.bind (hevaluate.bind (by simpa only [hfilter] using hwarn)),
            ⟨fun _ _ => rfl, rfl⟩, ?_⟩
          · rfl
          · rw [Decides, hleads, hround]
            simp [Expr.Holds]
        | some values =>
          obtain ⟨rfl, hmay⟩ := Option.filter_eq_some_iff.mp hfilter
          have hmore : Allowed declared (names.length + 1) := by
            simpa [Allowed, mayBind, Nat.succ_le_iff] using hmay
          have htests := anyValue_tests (Expr.unbound_of_resolution hround).2
            (fun value => ih (hbound.cons hround value) (by simp; omega) hmore) values
          obtain ⟨result, last, trace', after, hafter, hrun, htidy, hdecided⟩ :=
            htests ((stageSupply supply.stage names.length).advance made) rfl
          exact ⟨result, last, _, after, hafter,
            hbegin.bind (hevaluate.bind (by simpa only [hfilter, List.length_cons] using hrun)),
            htidy, Decides.of_anyValue hround hdecided⟩

theorem bound_nil (condition : Expr) (context : Context) : Bound condition context [] :=
  ⟨List.nodup_nil, List.nil_subset _, by simp⟩

theorem satisfied_tests (env : Environment) [env.registry.EvaluatesArguments] (condition : Expr)
    (declared : List String) (stage : Nat) (context : Context) :
    Tests (satisfied env condition declared) stage context
      (Decides env condition declared stage 0 context) :=
  satisfiedWithin_tests (bound_nil condition context) (by simp) (.inr (Nat.zero_le _))

/-! ### The selecting cursor -/

variable {scope : Scope} {child : Cursor}

/-- Whether a candidate satisfies the condition in a fresh context. -/
def keeps (scope : Scope) (stage : Nat) (condition : Expr) (candidate : Value) :
    Except EvalError Bool :=
  (outcomeOf (satisfied scope.environment condition scope.declared)
    (scope.context.setCandidate candidate) (stageSupply stage 0)).result

theorem Tidy.clear_eq {candidate : Value} {result : Except EvalError Bool} {last : Context}
    (h : Tidy (scope.context.setCandidate candidate) result last) :
    last.clearVariables.clearCandidate = scope.context := by
  rw [h.cleared]
  simp [Scope.context, Context.ofParameters, Context.setCandidate, Context.setState,
    Context.clearVariables, Context.clearCandidate, Bindings.insert, Bindings.erase]

theorem keeps_settles (scope : Scope) [scope.environment.registry.EvaluatesArguments] (stage : Nat)
    (condition : Expr) (candidate : Value) :
    ∃ last trace after,
      Settles (satisfied scope.environment condition scope.declared)
        (scope.context.setCandidate candidate) (stageSupply stage 0)
        ⟨keeps scope stage condition candidate, last, trace, after⟩ ∧
      last.clearVariables.clearCandidate = scope.context ∧
      Decides scope.environment condition scope.declared stage 0
        (scope.context.setCandidate candidate) (keeps scope stage condition candidate) := by
  obtain ⟨result, last, trace, after, _, hsettles, htidy, hdecided⟩ :=
    satisfied_tests scope.environment condition scope.declared stage
      (scope.context.setCandidate candidate) (stageSupply stage 0) rfl
  have hkeeps : keeps scope stage condition candidate = result := by
    rw [keeps, hsettles.outcomeOf_eq]
  rw [hkeeps]
  exact ⟨last, trace, after, hsettles, htidy.clear_eq, hdecided⟩

/-- One candidate of the cursor below: it is given, refused, or its test fails. The context that
stays is the fresh one. -/
theorem nextSatisfying_of_some (scope : Scope) [scope.environment.registry.EvaluatesArguments]
    (stage : Nat) (condition : Expr) (child : Cursor) (candidate : Value) :
    ∃ trace, ∀ fuel below own before last between,
      child.next ⟨below, before⟩ = .ok (some candidate) ⟨last, between⟩ →
      nextSatisfying scope stage condition child (fuel + 1) scope.context ⟨⟨below, own⟩, before⟩ =
        match keeps scope stage condition candidate with
        | .error error =>
          .error (.evaluation error) ⟨⟨last, some scope.context⟩, between ++ trace⟩
        | .ok true => .ok (some candidate) ⟨⟨last, some scope.context⟩, between ++ trace⟩
        | .ok false => nextSatisfying scope stage condition child fuel scope.context
            ⟨⟨last, some scope.context⟩, between ++ trace⟩ := by
  obtain ⟨changed, trace, made, hsettles, hclear, _⟩ :=
    keeps_settles scope stage condition candidate
  refine ⟨trace, fun fuel below own before last between hnext => ?_⟩
  have hevaluating := Work.evaluating_of_settles hsettles
    (⟨⟨last, own⟩, between⟩ : Progress (Layer child.State (Option Context)))
  simp only [nextSatisfying, Bind.bind, EStateM.bind, Work.below, hnext, hevaluating,
    Work.setOwn_apply, hclear]
  cases keeps scope stage condition candidate with
  | error error => rfl
  | ok b => cases b <;> rfl

section Reading

variable {fuel : Nat} {context : Context} {own : Option Context} {below last : child.State}
  {before after : Trace}

theorem nextSatisfying_of_none (hnext : child.next ⟨below, before⟩ = .ok none ⟨last, after⟩) :
    nextSatisfying scope stage condition child (fuel + 1) context ⟨⟨below, own⟩, before⟩ =
      .ok none ⟨⟨last, own⟩, after⟩ := by
  simp only [nextSatisfying, Bind.bind, EStateM.bind, Work.below, hnext]
  rfl

theorem nextSatisfying_of_error {error : QueryError}
    (hnext : child.next ⟨below, before⟩ = .error error ⟨last, after⟩) :
    nextSatisfying scope stage condition child (fuel + 1) context ⟨⟨below, own⟩, before⟩ =
      .error error ⟨⟨last, own⟩, after⟩ := by
  simp only [nextSatisfying, Bind.bind, EStateM.bind, Work.below, hnext]

end Reading

theorem own_after_nextSatisfying [scope.environment.registry.EvaluatesArguments] (fuel : Nat)
    (below : child.State) (before : Trace) :
    (Work.after (nextSatisfying scope stage condition child fuel scope.context)
      ⟨⟨below, some scope.context⟩, before⟩).state.own = some scope.context := by
  induction fuel generalizing below before with
  | zero => rfl
  | succ fuel ih =>
    cases hnext : child.next ⟨below, before⟩ with
    | error error progress => rw [Work.after, nextSatisfying_of_error hnext]
    | ok value progress =>
      cases value with
      | none => rw [Work.after, nextSatisfying_of_none hnext]
      | some candidate =>
        obtain ⟨trace, hstep⟩ :=
          nextSatisfying_of_some scope stage condition child candidate
        rw [Work.after, hstep fuel _ _ _ _ _ hnext]
        cases keeps scope stage condition candidate with
        | error error => rfl
        | ok b =>
          cases b with
          | true => rfl
          | false => exact ih _ _

theorem filter_init_of_begun {progress : Progress (filter scope stage condition child).State}
    (h : progress.state.own.isSome) :
    (filter scope stage condition child).init progress = .ok () progress :=
  Work.begun h

theorem filter_init_of_notBegun {progress : Progress (filter scope stage condition child).State}
    (h : progress.state.own = none) :
    (filter scope stage condition child).init progress =
      match child.init ⟨progress.state.below, progress.trace⟩ with
      | .ok _ after => .ok () ⟨⟨after.state, some scope.context⟩, after.trace⟩
      | .error error after => .error error ⟨⟨after.state, none⟩, after.trace⟩ := by
  refine (Work.notBegun h).trans ((Work.below_setOwn progress).trans ?_)
  rw [h]
  cases child.init ⟨progress.state.below, progress.trace⟩ <;> rfl

theorem filter_next_of_notBegun {progress : Progress (filter scope stage condition child).State}
    (h : progress.state.own = none) :
    (filter scope stage condition child).next progress = .error .notInitialised progress := by
  obtain ⟨⟨below, own⟩, trace⟩ := progress
  obtain rfl : own = none := h
  rfl

theorem filter_next_of_begun (context : Context) (below : child.State) (before : Trace) :
    (filter scope stage condition child).next ⟨⟨below, some context⟩, before⟩ =
      nextSatisfying scope stage condition child (child.remaining below + 1) context
        ⟨⟨below, some context⟩, before⟩ := rfl

theorem own_of_reached_filter [scope.environment.registry.EvaluatesArguments]
    {progress : Progress (filter scope stage condition child).State}
    (h : (filter scope stage condition child).Reached progress) :
    progress.state.own = none ∨ progress.state.own = some scope.context := by
  let fresh := fun state : Layer child.State (Option Context) =>
    state.own = none ∨ state.own = some scope.context
  refine h.invariant (p := fresh) (.inl rfl) ?_ ?_
  · intro progress hown
    rcases hown with hown | hown
    · rw [Work.after, filter_init_of_notBegun hown]
      cases child.init ⟨progress.state.below, progress.trace⟩ with
      | ok _ after => exact .inr rfl
      | error error after => exact .inl rfl
    · rw [Work.after, filter_init_of_begun (by simp [hown])]
      exact .inr hown
  · intro progress hown
    rcases hown with hown | hown
    · rw [Work.after, filter_next_of_notBegun hown]
      exact .inl hown
    · obtain ⟨⟨below, own⟩, before⟩ := progress
      obtain rfl : own = some scope.context := hown
      rw [Work.after, filter_next_of_begun]
      exact .inr (own_after_nextSatisfying _ below before)

/-- The test of a candidate is true if and only if its own stops offer bindings under which the
condition is true, no more of them than variables are declared, and it gives the context back as it
found it. Between the candidates of a selection no variable and no candidate has a value. -/
theorem satisfied_iff_offered (env : Environment) [env.registry.EvaluatesArguments]
    (condition : Expr) (declared : List String) :
    (∀ (machine : Machine) b after,
      satisfied env condition declared machine = .ok b after →
      (b = true ↔ ∃ bindings : List (String × Value),
        (declared ≠ [] → bindings.length ≤ declared.length) ∧
        Offered env condition machine.supply.stage 0 machine.context bindings ∧
        Expr.Holds (roundResult env condition machine.supply.stage bindings.length
          (machine.context.bindAll bindings))) ∧
      after.context = machine.context) ∧
    ∀ (scope : Scope) [scope.environment.registry.EvaluatesArguments] (stage : Nat) (child : Cursor)
      (progress : Progress (filter scope stage condition child).State),
      (filter scope stage condition child).Reached progress →
      ∀ context, progress.state.own = some context →
        context.assignment = [] ∧ context.candidate? = none := by
  constructor
  · rintro ⟨context, stack, before, supply⟩ b after hrun
    obtain ⟨result, last, trace, made, _, hsettles, htidy, hdecided⟩ :=
      satisfied_tests env condition declared supply.stage context supply rfl
    obtain ⟨leftover, hsettles⟩ := hsettles
    rw [hsettles] at hrun
    cases result with
    | error error => cases hrun
    | ok b =>
      cases hrun
      refine ⟨hdecided.trans ?_, htidy.kept b rfl⟩
      simp only [Leads, Allowed, Nat.zero_add, Classical.or_iff_not_imp_left, ne_eq]
  · intro scope _ stage child progress hreached context hcontext
    rcases own_of_reached_filter hreached with hown | hown
    · rw [hown] at hcontext
      cases hcontext
    · rw [hown] at hcontext
      cases hcontext
      exact ⟨rfl, rfl⟩

/-- An environment in which collections can be asked for their members, and nothing else. -/
def membership : Environment :=
  ⟨.empty, ⟨[], [("Collection", [("contains", .collection .contains)])]⟩, .detached⟩

instance : membership.registry.EvaluatesArguments :=
  ⟨Registry.every_of_forall_mem (by simp [membership])
    (by simp [membership, Method.EvaluatesArguments])⟩

/-- Queries without parameters that ask for members. -/
def membershipScope (declared : List String) : Scope :=
  ⟨membership, Context.defaultCandidateName, [], declared⟩

instance (declared : List String) :
    (membershipScope declared).environment.registry.EvaluatesArguments :=
  inferInstanceAs membership.registry.EvaluatesArguments

/-- Asks for a true value among false and true. -/
def trueMember : Expr :=
  .binary .and (.callMethod (.literal (.list [.boolean false, .boolean true])) "contains"
    [.var "v"]) (.var "v")

theorem satisfied_iff_offered_trueMember :
    let context := (membershipScope ["v"]).context
    let machine : Machine := ⟨context, [], .empty, stageSupply 1 0⟩
    let selection := filter (membershipScope ["v"]) 1 trueMember (scan [.null])
    (∃ after, satisfied membership trueMember ["v"] machine = .ok true after ∧
      after.context = context) ∧
    (∃ bindings : List (String × Value), (["v"] ≠ [] → bindings.length ≤ 1) ∧
      Offered membership trueMember 1 0 context bindings ∧
      Expr.Holds (roundResult membership trueMember 1 bindings.length
        (context.bindAll bindings))) ∧
    (let begun := Work.after selection.init ⟨selection.start, .empty⟩
    selection.Reached begun ∧ begun.state.own = some context ∧
      context.assignment = [] ∧ context.candidate? = none) := by
  intro context machine selection
  obtain ⟨hsearch, hcursor⟩ := satisfied_iff_offered membership trueMember ["v"]
  have hvalue : (satisfied membership trueMember ["v"]).run' machine = some true := by
    decide +kernel
  delta EStateM.run' EStateM.run at hvalue
  obtain ⟨after, hrun⟩ : ∃ after, satisfied membership trueMember ["v"] machine =
    .ok true after := by
    cases hresult : satisfied membership trueMember ["v"] machine with
    | ok b after =>
      rw [hresult] at hvalue
      cases hvalue
      exact ⟨after, rfl⟩
    | error error after =>
      rw [hresult] at hvalue
      cases hvalue
  obtain ⟨hiff, hcontext⟩ := hsearch machine true after hrun
  have hreached := Reached.init (Reached.start : selection.Reached _)
  have hown : (Work.after selection.init ⟨selection.start, .empty⟩).state.own = some context := rfl
  exact ⟨⟨after, hrun, hcontext⟩, hiff.mp rfl, hreached, hown,
    hcursor (membershipScope ["v"]) 1 (scan [.null]) _ hreached context hown⟩

end Cursor

end ObjectQuery
