import Mathlib.Data.List.Dedup
import ObjectQuery.Proofs.Cursor.Selection

/-!
How deep the search for values of variables goes. Main statement: the search ends, however its
rounds are counted, and no more variables have values at a time than the condition mentions; whether
more of them are declared makes no difference.
-/

namespace ObjectQuery

variable {ε α β : Type}

section Bind

variable {run : EStateM ε Machine α} {next : α → EStateM ε Machine β} {before after : Machine}

theorem completion_bind_of_ok {a : α} (h : completion run before = (.ok a, after)) :
    completion (run >>= next) before = completion (next a) after := by
  simp only [completion, Bind.bind, EStateM.bind] at h ⊢
  cases hrun : run before <;> rw [hrun] at h <;> cases h
  rfl

theorem completion_bind_of_error {error : ε} (h : completion run before = (.error error, after)) :
    completion (run >>= next) before = (.error error, after) := by
  simp only [completion, Bind.bind, EStateM.bind] at h ⊢
  cases hrun : run before <;> rw [hrun] at h <;> cases h
  rfl

end Bind

theorem eq_of_completion_eq {run other : EStateM ε Machine α}
    (h : ∀ machine, completion run machine = completion other machine) : run = other := by
  funext machine
  have hmachine := h machine
  simp only [completion] at hmachine
  cases hrun : run machine <;> cases hother : other machine <;>
    simp_all

namespace Cursor

section Search

variable (env : Environment) (condition : Expr) (declared : List String)

mutual

/-- A search that goes on without any count of its rounds, from a machine on which `bound` variables
have values: what it comes to and the machine that it leaves. One inside another, at most `depth`
more variables get values. -/
inductive Search : (depth bound : Nat) → Machine → Except EvalError Bool × Machine → Prop
  | fails {depth bound : Nat} {before after : Machine} {error : EvalError}
      (heval : completion (condition.evaluate env) (before.beginTurn bound) =
        (.error error, after)) :
      Search depth bound before (.error error, after)
  | resolves {depth bound : Nat} {before after : Machine} {operand : Operand}
      (heval : completion (condition.evaluate env) (before.beginTurn bound) =
        (.ok (.resolved operand), after)) :
      Search depth bound before (.ok operand.isTrue, after)
  | refuses {depth bound : Nat} {before after : Machine} {missing : Unbound}
      (heval : completion (condition.evaluate env) (before.beginTurn bound) =
        (.ok (.unbound missing), after))
      (hnone : missing.candidates = none ∨ mayBind declared bound = false) :
      Search depth bound before (.ok false, after.warn (.unboundVariable missing.name))
  | tries {depth bound : Nat} {before middle : Machine} {name : String} {values : List Value}
      {outcome : Except EvalError Bool × Machine}
      (heval : completion (condition.evaluate env) (before.beginTurn bound) =
        (.ok (.unbound ⟨name, some values⟩), middle))
      (hmay : mayBind declared bound = true)
      (htrials : Trials depth (bound + 1) name values middle outcome) :
      Search (depth + 1) bound before outcome

/-- Searches with the values of a variable, one after another up to the first that succeeds or
fails. -/
inductive Trials : (depth bound : Nat) → (name : String) → List Value → Machine →
    Except EvalError Bool × Machine → Prop
  | none {depth bound : Nat} {name : String} {before : Machine} :
      Trials depth bound name [] before (.ok false, before.mapContext (·.clearVariable name))
  | succeeds {depth bound : Nat} {name : String} {value : Value} {rest : List Value}
      {before after : Machine}
      (hsearch : Search depth bound (before.mapContext (·.setVariable name value))
        (.ok true, after)) :
      Trials depth bound name (value :: rest) before
        (.ok true, after.mapContext (·.clearVariable name))
  | goesOn {depth bound : Nat} {name : String} {value : Value} {rest : List Value}
      {before middle : Machine} {outcome : Except EvalError Bool × Machine}
      (hsearch : Search depth bound (before.mapContext (·.setVariable name value))
        (.ok false, middle))
      (hrest : Trials depth bound name rest middle outcome) :
      Trials depth bound name (value :: rest) before outcome
  | fails {depth bound : Nat} {name : String} {value : Value} {rest : List Value}
      {before after : Machine} {error : EvalError}
      (hsearch : Search depth bound (before.mapContext (·.setVariable name value))
        (.error error, after)) :
      Trials depth bound name (value :: rest) before (.error error, after)

end

end Search

variable {env : Environment} {condition : Expr} {declared : List String} {depth bound : Nat}

/-! ### Counted rounds -/

theorem Trials.completion_eq {name : String} {test : EStateM EvalError Machine Bool}
    (htest : ∀ {before outcome}, Search env condition declared depth bound before outcome →
      completion test before = outcome)
    {values : List Value} {before : Machine} {outcome : Except EvalError Bool × Machine}
    (h : Trials env condition declared depth bound name values before outcome) :
    completion (anyValue name test values) before = outcome := by
  induction values generalizing before with
  | nil =>
    cases h
    rfl
  | cons value rest ih =>
    have hset : completion (modify (·.mapContext (·.setVariable name value)) :
        EStateM EvalError Machine Unit) before =
          (.ok (), before.mapContext (·.setVariable name value)) := rfl
    rw [anyValue, completion_bind_of_ok hset]
    cases h with
    | succeeds hsearch => exact completion_bind_of_ok (htest hsearch)
    | goesOn hsearch hrest => exact (completion_bind_of_ok (htest hsearch)).trans (ih hrest)
    | fails hsearch => exact completion_bind_of_error (htest hsearch)

/-- With more rounds than variables that get values, the counted search is this one. -/
theorem Search.completion_eq {before : Machine} {outcome : Except EvalError Bool × Machine}
    (h : Search env condition declared depth bound before outcome) {rounds : Nat}
    (hrounds : depth < rounds) :
    completion (satisfiedWithin env condition declared rounds bound) before = outcome := by
  induction rounds generalizing depth bound before outcome with
  | zero => exact absurd hrounds (Nat.not_lt_zero depth)
  | succ rounds ih =>
    have hturn : completion (modify (·.beginTurn bound) : EStateM EvalError Machine Unit) before =
        (.ok (), before.beginTurn bound) := rfl
    rw [satisfiedWithin, completion_bind_of_ok hturn]
    cases h with
    | fails heval => exact completion_bind_of_error heval
    | resolves heval => exact completion_bind_of_ok heval
    | @refuses _ _ _ _ missing heval hnone =>
      have hfilter : missing.candidates.filter (fun _ => mayBind declared bound) = none := by
        rcases hnone with hnone | hnone
        · rw [hnone]
          rfl
        · rw [hnone]
          cases missing.candidates <;> rfl
      refine (completion_bind_of_ok heval).trans ?_
      simp only [hfilter]
      rfl
    | @tries depth _ _ _ name values _ heval hmay htrials =>
      refine (completion_bind_of_ok heval).trans ?_
      simp only [hmay, Option.filter_some, if_true]
      exact htrials.completion_eq fun hsearch => ih hsearch (Nat.lt_of_succ_lt_succ hrounds)

/-! ### The variables of the condition -/

theorem Bound.length_le_dedup {context : Context} {names : List String}
    (h : Bound condition context names) :
    names.length ≤ (variableNames condition).dedup.length :=
  (h.nodup.subperm fun _ hname => List.mem_dedup.mpr (h.subset hname)).length_le

/-- The declared variables allow as many to be bound as told, as far as the condition has so many.
-/
def Allows (condition : Expr) (may : Nat → Bool) (declared : List String) : Prop :=
  ∀ bound < (variableNames condition).dedup.length, mayBind declared bound = may bound

/-- From the machine there is a search that comes to an outcome, one and the same for all declared
variables that allow as told, and gives the context back unless it fails. -/
def Ends (env : Environment) (condition : Expr) (may : Nat → Bool) (depth bound : Nat)
    (before : Machine) : Prop :=
  ∃ outcome, (∀ declared, Allows condition may declared →
      Search env condition declared depth bound before outcome) ∧
    ∀ b, outcome.1 = .ok b → outcome.2.context = before.context

variable {may : Nat → Bool}

theorem exists_trials {context : Context} {name : String} (hname : context.binding? name = none)
    (hends : ∀ (before : Machine) value, before.context = context.setVariable name value →
      Ends env condition may depth bound before)
    (values : List Value) {before : Machine} (hbefore : context.Rebinds name before.context) :
    ∃ outcome, (∀ declared, Allows condition may declared →
        Trials env condition declared depth bound name values before outcome) ∧
      ∀ b, outcome.1 = .ok b → outcome.2.context = context := by
  induction values generalizing before with
  | nil => exact ⟨_, fun _ _ => .none, fun _ _ => hbefore.clearVariable hname⟩
  | cons value rest ih =>
    have hset := hbefore.setVariable value
    obtain ⟨⟨result, middle⟩, hsearch, hkept⟩ :=
      hends (before.mapContext (·.setVariable name value)) value hset
    cases result with
    | error error => exact ⟨_, fun declared h => .fails (hsearch declared h), by simp⟩
    | ok b =>
      have hmiddle : middle.context = context.setVariable name value := (hkept b rfl).trans hset
      cases b with
      | true =>
        refine ⟨_, fun declared h => .succeeds (hsearch declared h), fun _ _ => ?_⟩
        rw [Machine.mapContext, hmiddle]
        exact Context.clearVariable_setVariable hname value
      | false =>
        obtain ⟨outcome, htrials, hcontext⟩ := ih (.inr ⟨value, hmiddle⟩)
        exact ⟨outcome, fun declared h =>
          .goesOn (hsearch declared h) (htrials declared h), hcontext⟩

theorem completion_round (env : Environment) [env.registry.EvaluatesArguments] (condition : Expr)
    (bound : Nat) (before : Machine) :
    ∃ middle : Machine, middle.context = before.context ∧
      completion (condition.evaluate env) (before.beginTurn bound) =
        (roundResult env condition before.supply.stage bound before.context, middle) := by
  obtain ⟨_, _, heval⟩ := condition.completion_evaluate env (before.beginTurn bound)
  refine ⟨_, ?_, heval⟩
  rfl

theorem Bound.ends (env : Environment) [env.registry.EvaluatesArguments] (may : Nat → Bool)
    {names : List String} {before : Machine} (h : Bound condition before.context names) :
    Ends env condition may ((variableNames condition).dedup.length - names.length) names.length
      before := by
  obtain ⟨middle, hmiddle, heval⟩ := completion_round env condition names.length before
  cases hround : roundResult env condition before.supply.stage names.length before.context with
  | error error =>
    rw [hround] at heval
    exact ⟨_, fun _ _ => .fails heval, by simp⟩
  | ok resolution =>
    rw [hround] at heval
    cases resolution with
    | resolved operand => exact ⟨_, fun _ _ => .resolves heval, fun _ _ => hmiddle⟩
    | unbound missing =>
      obtain ⟨name, candidates⟩ := missing
      have hmore := h.cons hround
      have hlt : names.length < (variableNames condition).dedup.length :=
        (hmore .null).length_le_dedup
      cases hmay : may names.length with
      | false =>
        exact ⟨_, fun declared hallows => .refuses heval (.inr ((hallows _ hlt).trans hmay)),
          fun _ _ => hmiddle⟩
      | true =>
        cases candidates with
        | none => exact ⟨_, fun _ _ => .refuses heval (.inl rfl), fun _ _ => hmiddle⟩
        | some values =>
          obtain ⟨outcome, htrials, hcontext⟩ := exists_trials
            (Expr.unbound_of_resolution hround).2
            (fun next value hnext => Bound.ends env may (hnext ▸ hmore value)) values
            (.inl hmiddle)
          refine ⟨outcome, fun declared hallows => ?_, hcontext⟩
          have hsearch := Search.tries heval ((hallows _ hlt).trans hmay) (htrials declared hallows)
          rwa [List.length_cons, Nat.sub_add_eq, Nat.sub_add_cancel (Nat.sub_pos_of_lt hlt)]
            at hsearch
termination_by (variableNames condition).dedup.length - names.length
decreasing_by
  rw [List.length_cons]
  omega

theorem exists_search (env : Environment) [env.registry.EvaluatesArguments] (condition : Expr)
    (may : Nat → Bool) (machine : Machine) :
    ∃ outcome, ∀ declared, Allows condition may declared →
      Search env condition declared (variableNames condition).dedup.length 0 machine outcome ∧
        completion (satisfied env condition declared) machine = outcome := by
  obtain ⟨outcome, hsearch, _⟩ := (bound_nil condition machine.context).ends env may
  refine ⟨outcome, fun declared hallows => ⟨hsearch declared hallows, ?_⟩⟩
  have hle : (variableNames condition).dedup.length ≤ (variableNames condition).length :=
    (List.dedup_sublist _).length_le
  exact (hsearch declared hallows).completion_eq (Nat.lt_succ_of_le hle)

/-- No variables are declared, or at least as many as the condition mentions. -/
def Ample (condition : Expr) (declared : List String) : Prop :=
  declared = [] ∨ (variableNames condition).dedup.length ≤ declared.length

theorem Ample.allows (h : Ample condition declared) :
    Allows condition (fun _ => true) declared := by
  intro bound hbound
  rcases h with rfl | h
  · rfl
  · simp only [mayBind, Bool.or_eq_true, decide_eq_true_eq]
    exact .inr (Nat.lt_of_lt_of_le hbound h)

theorem Ample.satisfied_eq (env : Environment) [env.registry.EvaluatesArguments]
    {declared' : List String} (h : Ample condition declared) (h' : Ample condition declared') :
    satisfied env condition declared = satisfied env condition declared' := by
  refine eq_of_completion_eq fun machine => ?_
  obtain ⟨outcome, houtcome⟩ := exists_search env condition (fun _ => true) machine
  rw [(houtcome declared h.allows).2, (houtcome declared' h'.allows).2]

theorem nextSatisfying_congr (scope scope' : Scope) (stage : Nat) (child : Cursor)
    (h : satisfied scope.environment condition scope.declared =
      satisfied scope'.environment condition scope'.declared) :
    nextSatisfying scope stage condition child = nextSatisfying scope' stage condition child := by
  funext fuel
  induction fuel with
  | zero => rfl
  | succ fuel ih =>
    funext context
    simp only [nextSatisfying, h, ih]

/-- An evaluation stops on no other variables than those that the condition mentions and that have
no value. So the search ends, in one way only, and one inside another it binds no more variables
than the condition mentions. All declared variables that are no fewer than these, and none at all,
are as good as one another: for the test, with all that it reports, and for the selection. -/
theorem search_within_variables (scope : Scope) [scope.environment.registry.EvaluatesArguments]
    (condition : Expr) :
    (∀ (machine after : Machine) missing,
      condition.evaluate scope.environment machine = .ok (.unbound missing) after →
        missing.name ∈ variableNames condition ∧
        machine.context.state.get? missing.name = none ∧
        machine.context.assignment.get? missing.name = none) ∧
    (∀ declared machine,
      Search scope.environment condition declared (variableNames condition).dedup.length 0 machine
        (completion (satisfied scope.environment condition declared) machine)) ∧
    (∀ declared machine depth outcome,
      Search scope.environment condition declared depth 0 machine outcome →
        outcome = completion (satisfied scope.environment condition declared) machine) ∧
    (∀ declared declared', Ample condition declared → Ample condition declared' →
      satisfied scope.environment condition declared =
        satisfied scope.environment condition declared' ∧
      ∀ stage child, filter { scope with declared := declared } stage condition child =
        filter { scope with declared := declared' } stage condition child) := by
  have hsearch : ∀ declared machine,
      Search scope.environment condition declared (variableNames condition).dedup.length 0 machine
        (completion (satisfied scope.environment condition declared) machine) := by
    intro declared machine
    obtain ⟨outcome, houtcome⟩ :=
      exists_search scope.environment condition (mayBind declared) machine
    obtain ⟨hsearch, hcompletion⟩ := houtcome declared fun _ _ => rfl
    rwa [hcompletion]
  refine ⟨fun machine after missing hrun => ?_, hsearch, fun declared machine depth outcome h => ?_,
    fun declared declared' h h' => ?_⟩
  · obtain ⟨trace, made, heval⟩ := condition.completion_evaluate scope.environment machine
    rw [completion, hrun, Prod.mk.injEq] at heval
    obtain ⟨hmem, hnone⟩ := Expr.unbound_of_resolution heval.1.symm
    exact ⟨hmem, Option.or_eq_none_iff.mp hnone⟩
  · -- Both searches are the counted one, if only the rounds are more than both are deep.
    have hrounds := Nat.le_max_left depth (variableNames condition).dedup.length
    have hrounds' := Nat.le_max_right depth (variableNames condition).dedup.length
    rw [← h.completion_eq (Nat.lt_succ_of_le hrounds)]
    exact (hsearch declared machine).completion_eq (Nat.lt_succ_of_le hrounds')
  · have hsatisfied := h.satisfied_eq scope.environment h'
    refine ⟨hsatisfied, fun stage child => ?_⟩
    have hnext := nextSatisfying_congr { scope with declared := declared }
      { scope with declared := declared' } stage child hsatisfied
    simp only [filter, hnext]
    rfl

/-- The variable is mentioned twice, but gets a value once, whether it is declared or not. -/
theorem search_within_variables_trueMember :
    let machine : Machine := ⟨(membershipScope []).context, [], .empty, stageSupply 1 0⟩
    let outcome := completion (satisfied membership trueMember []) machine
    (∃ after, trueMember.evaluate membership machine =
        .ok (.unbound ⟨"v", some [.boolean false, .boolean true]⟩) after ∧
      "v" ∈ variableNames trueMember ∧ machine.context.state.get? "v" = none ∧
      machine.context.assignment.get? "v" = none) ∧
    (variableNames trueMember).dedup.length = 1 ∧
    Search membership trueMember [] 1 0 machine outcome ∧
    outcome = completion (satisfied membership trueMember []) machine ∧
    Ample trueMember [] ∧ Ample trueMember ["v"] ∧
    satisfied membership trueMember [] = satisfied membership trueMember ["v"] := by
  intro machine outcome
  obtain ⟨hstops, hsearch, hunique, halike⟩ :=
    search_within_variables (membershipScope []) trueMember
  have hnames : (variableNames trueMember).dedup.length = 1 := by decide
  have hample : Ample trueMember [] := .inl rfl
  have hample' : Ample trueMember ["v"] := .inr (Nat.le_of_eq hnames)
  have hfound := hsearch [] machine
  rw [hnames] at hfound
  have heval : ∃ after, trueMember.evaluate membership machine =
      .ok (.unbound ⟨"v", some [.boolean false, .boolean true]⟩) after := ⟨_, rfl⟩
  obtain ⟨after, heval⟩ := heval
  exact ⟨⟨after, heval, hstops machine after _ heval⟩, hnames, hfound,
    hunique [] machine 1 outcome hfound, hample, hample', (halike _ _ hample hample').1⟩

end Cursor

end ObjectQuery
