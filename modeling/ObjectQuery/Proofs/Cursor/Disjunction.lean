import ObjectQuery.Proofs.Cursor.Selection
import ObjectQuery.Proofs.Evaluation.Fresh
import ObjectQuery.Proofs.Evaluation.Operands

/-!
Disjunctions as conditions. Both sides are evaluated whatever the other comes to, so a side that
stops on a variable without values drops a candidate that the other side keeps.
-/

namespace ObjectQuery

variable {env : Environment} {context : Context} {supply supply' supply'' : InstanceId}
  {trace trace' : Trace}

/-! ### What a disjunction comes to -/

namespace Expr

/-- The disjunction of two conditions. -/
def or (left right : Expr) : Expr := binary .or left right

theorem or_resolution {left right : Expr} {l r : Operand}
    (hleft : Settles (left.result env .operand) context supply ⟨.ok l, context, trace, supply'⟩)
    (hright : Settles (right.result env .operand) context supply'
      ⟨.ok r, context, trace', supply''⟩) :
    (left.or right).resolution env context supply =
      .ok (.resolved (BinaryOperator.disjunction l r)) := by
  have happly : Settles (BinaryOperator.or.apply l r) context supply'' _ := .pure _
  rw [or]
  exact binary_resolution rfl hleft hright happly

/-- The evaluation comes to its end. -/
def Resolves (result : Except EvalError Resolution) : Prop :=
  ∃ operand, result = .ok (.resolved operand)

end Expr

theorem BinaryOperator.disjunction_isTrue {left right : Operand}
    (h : left.isTrue ∨ right.isTrue) : (disjunction left right).isTrue := by
  have hor : (left.isTrue || right.isTrue) = true := by simpa using h
  rw [disjunction, hor]
  rfl

namespace Cursor

/-! ### Searches that follow another search -/

/-- A condition that stops as the other one does, up to the names of instances, and is true where
the other one comes to its end. -/
inductive Absorbs (ρ : InstanceId → InstanceId) :
    Except EvalError Resolution → Except EvalError Resolution → Prop where
  | resolved (operand : Operand) {operand' : Operand} (h : operand'.isTrue) :
    Absorbs ρ (.ok (.resolved operand)) (.ok (.resolved operand'))
  | unbound (missing : Unbound) :
    Absorbs ρ (.ok (.unbound missing)) (.ok (.unbound (missing.rename ρ)))
  | error (error : EvalError) : Absorbs ρ (.error error) (.error error)

theorem Absorbs.holds_iff {ρ : InstanceId → InstanceId}
    {result result' : Except EvalError Resolution}
    (h : Absorbs ρ result result') : Expr.Holds result' ↔ Expr.Resolves result := by
  cases h with
  | resolved operand h => exact ⟨fun _ => ⟨operand, rfl⟩, fun _ => ⟨_, rfl, h⟩⟩
  | unbound missing => simp [Expr.Holds, Expr.Resolves]
  | error error => simp [Expr.Holds, Expr.Resolves]

/-- The two conditions stop alike in contexts that correspond. -/
def Follows (A : Agreement) (env : Environment) (stage : Nat) (base : Context)
    (source target : Expr) : Prop :=
  ∀ bound context context', A.Contexts context context' →
    (∃ assignment, context' = { base with assignment := assignment }) →
    Absorbs A.rename (roundResult env source stage bound context)
      (roundResult env target stage bound context')

end Cursor

theorem Agreement.Contexts.setVariable {A : Agreement} {context context' : Context}
    (hc : A.Contexts context context') (name : String) (value : Value) :
    A.Contexts (context.setVariable name value)
      (context'.setVariable name (value.rename A.rename)) where
  candidateName := hc.candidateName
  parameter := hc.parameter
  state := hc.state
  resultSet := hc.resultSet
  binding := by
    intro other hother
    by_cases h : name = other
    · subst h
      have hstate := hc.state name
      simp only [Context.binding?, Context.setVariable, Bindings.get?_insert_self, hstate]
      cases context.state.get? name <;> rfl
    · simpa [Context.binding?_setVariable_of_ne _ _ h] using hc.binding other hother

namespace Cursor

variable {A : Agreement} {stage : Nat} {base : Context} {source target : Expr}
  {declared : List String}

theorem Follows.leads_iff (h : Follows A env stage base source target) {bound : Nat}
    {context context' : Context} (hc : A.Contexts context context')
    (hbase : ∃ assignment, context' = { base with assignment := assignment }) :
    Leads env target declared stage bound context' Expr.Holds ↔
      Leads env source declared stage bound context Expr.Resolves := by
  constructor
  · rintro ⟨bindings, hallowed, hoffered, hend⟩
    induction bindings generalizing bound context context' with
    | nil => exact .here hallowed ((h bound context context' hc hbase).holds_iff.mp hend)
    | cons binding rest ih =>
      obtain ⟨name, value'⟩ := binding
      obtain ⟨⟨values', hvalues', hmem'⟩, hrest⟩ := hoffered
      have habsorbs := h bound context context' hc hbase
      rw [hvalues'] at habsorbs
      -- What the target offers are images of what the source offers, so a choice can be taken back.
      generalize hsource : roundResult env source stage bound context = result at habsorbs
      generalize htarget : (Except.ok (Resolution.unbound ⟨name, some values'⟩) :
        Except EvalError Resolution) = result' at habsorbs
      cases habsorbs with
      | resolved operand h => cases htarget
      | error error => cases htarget
      | unbound missing =>
        obtain ⟨name', candidates⟩ := missing
        cases candidates with
        | none => simp [Unbound.rename] at htarget
        | some values =>
          obtain ⟨rfl, rfl⟩ : name = name' ∧ values' = values.map (Value.rename A.rename) := by
            simpa [Unbound.rename] using htarget
          obtain ⟨value, hmem, rfl⟩ := List.mem_map.mp hmem'
          rw [leads_iff_of_unbound declared hsource (by simp [Expr.Resolves])]
          rw [List.length_cons, Nat.add_comm rest.length, ← Nat.add_assoc] at hallowed hend
          refine ⟨value, hmem, ih (hc.setVariable name value) ?_ hallowed hrest hend⟩
          obtain ⟨assignment, rfl⟩ := hbase
          exact ⟨_, rfl⟩
  · rintro ⟨bindings, hallowed, hoffered, hend⟩
    induction bindings generalizing bound context context' with
    | nil => exact .here hallowed ((h bound context context' hc hbase).holds_iff.mpr hend)
    | cons binding rest ih =>
      obtain ⟨name, value⟩ := binding
      obtain ⟨⟨values, hvalues, hmem⟩, hrest⟩ := hoffered
      have habsorbs := h bound context context' hc hbase
      rw [hvalues] at habsorbs
      generalize htarget : roundResult env target stage bound context' = result' at habsorbs
      cases habsorbs with
      | unbound =>
        have htarget : roundResult env target stage bound context' =
            .ok (.unbound ⟨name, some (values.map (Value.rename A.rename))⟩) := htarget
        rw [leads_iff_of_unbound declared htarget (by simp [Expr.Holds])]
        rw [List.length_cons, Nat.add_comm rest.length, ← Nat.add_assoc] at hallowed hend
        refine ⟨value.rename A.rename, List.mem_map.mpr ⟨value, hmem, rfl⟩,
          ih (hc.setVariable name value) ?_ hallowed hrest hend⟩
        obtain ⟨assignment, rfl⟩ := hbase
        exact ⟨_, rfl⟩

/-! ### The two disjunctions -/

/-- The context holds no object made by the stage, and no variable has a value in it. -/
structure Outset (context : Context) (stage : Nat) : Prop where
  parameters : ∀ name, (context.parameter name).Elsewhere stage
  state : ∀ name value, context.state.get? name = some value → value.Elsewhere stage
  assignment : context.assignment = []
  resultSet : context.resultSet = none

theorem Outset.contexts (h : Outset base stage) (turn made : Nat) (met : String → Prop) :
    (Agreement.shifting stage turn made met).Contexts base base := by
  have hρ := InstanceId.renames_shift stage turn made
  exact Agreement.contexts_self (fun name => (h.parameters name).rename_eq hρ)
    (fun name value hvalue => (h.state name value hvalue).rename_eq hρ)
    (by simp [h.assignment, Bindings.get?]) (by simp [h.resultSet])

theorem Outset.contexts_assigned (h : Outset base stage) (turn made : Nat)
    (assignment : Bindings Value) :
    (Agreement.shifting stage turn made fun _ => False).Contexts base
      { base with assignment := assignment } := by
  have hbase := h.contexts turn made fun _ => False
  exact ⟨hbase.candidateName, hbase.parameter, hbase.state, fun _ hfalse => hfalse.elim,
    hbase.resultSet⟩

/-- What a disjunct without variables needs to be true whatever the other one does. -/
structure Constant (env : Environment) (stage : Nat) (base : Context) (e : Expr) : Prop where
  elsewhere : e.Elsewhere stage
  closed : variableNames e = []
  holds : Expr.Holds (roundResult env e stage 0 base)

/-- A disjunct without variables is true in every round, whatever was made before it in the round,
and makes as many objects each time. -/
theorem Constant.result_settles (henv : env.Elsewhere stage) (hbase : Outset base stage) {e : Expr}
    (he : Constant env stage base e) :
    ∃ made, ∀ assignment turn before, ∃ operand trace, operand.isTrue ∧
      Settles (e.result env .operand) { base with assignment := assignment }
        ((stageSupply stage turn).advance before)
        ⟨.ok operand, { base with assignment := assignment }, trace,
          ((stageSupply stage turn).advance before).advance made⟩ := by
  have hagree : ∀ assignment turn before, ∃ result trace made,
      Settles (e.result env .operand) base (stageSupply stage 0)
        ⟨result, base, trace, (stageSupply stage 0).advance made⟩ ∧
      Settles (e.result env .operand) { base with assignment := assignment }
        ((stageSupply stage turn).advance before)
        ⟨(Agreement.shifting stage turn before fun _ => False).image
          (Operand.rename (InstanceId.shift stage turn before)) result,
          { base with assignment := assignment }, trace,
          ((stageSupply stage turn).advance before).advance made⟩ := by
    intro assignment turn before
    have hadmits : e.All (Agreement.shifting stage turn before fun _ => False).Admits :=
      Agreement.admits_shifting he.elsewhere (by simp [he.closed])
    have hsupplies := Agreement.shifting_supplies stage turn before 0 fun _ => False
    rw [Equiv.swap_apply_left] at hsupplies
    obtain ⟨result, trace, made, hfirst, hsecond, _⟩ := (Expr.result_agrees
      (henv _ (InstanceId.renames_shift stage turn before)) hadmits .operand base _
      (hbase.contexts_assigned turn before assignment)).settles hsupplies
    exact ⟨result, trace, made, hfirst, hsecond⟩
  -- The first turn fixes how many objects are made, since any other turn is a renaming of it.
  obtain ⟨result₀, trace₀, made₀, hfirst₀, _⟩ := hagree [] 0 0
  refine ⟨made₀, fun assignment turn before => ?_⟩
  obtain ⟨result, trace, made, hfirst, hsecond⟩ := hagree assignment turn before
  have hsame := hfirst.outcomeOf_eq.symm.trans hfirst₀.outcomeOf_eq
  obtain rfl : made = made₀ := by simpa [InstanceId.advance] using congrArg Outcome.supply hsame
  obtain ⟨operand, hresult, htrue⟩ := he.holds
  rw [roundResult, Expr.resolution_of_result hfirst] at hresult
  cases result with
  | ok operand' =>
    obtain rfl : operand' = operand := by simpa [Resolution.ofResult] using hresult
    exact ⟨_, trace, by simpa using htrue, hsecond⟩
  | error halt => cases halt <;> simp [Resolution.ofResult] at hresult

theorem follows_or_left (henv : env.Elsewhere stage) (hbase : Outset base stage) (e : Expr)
    {constant : Expr} (hconstant : Constant env stage base constant) :
    Follows (.refl fun name => name ∈ variableNames e) env stage base e (e.or constant) := by
  have := henv.evaluatesArguments
  rintro bound context _ hc ⟨assignment, rfl⟩
  obtain ⟨more, htrue⟩ := hconstant.result_settles henv hbase
  obtain ⟨result, trace, made, hfirst, hsecond, _⟩ :=
    (Expr.result_agrees (.refl env) e.admits_refl .operand _ _ hc).settles
      (.refl _ (stageSupply stage bound))
  rw [roundResult, Expr.resolution_of_result hfirst, roundResult]
  cases result with
  | ok l =>
    obtain ⟨r, trace', hr, hsettles⟩ := htrue assignment bound made
    rw [Expr.or_resolution hsecond hsettles]
    exact .resolved l (BinaryOperator.disjunction_isTrue (.inr hr))
  | error halt =>
    rw [Expr.or, Expr.binary_resolution_of_left rfl hsecond]
    cases halt with
    | unbound missing => exact .unbound missing
    | fatal error => exact .error error

theorem follows_or_right (henv : env.Elsewhere stage) (hbase : Outset base stage) {e : Expr}
    (he : e.Elsewhere stage) {constant : Expr} (hconstant : Constant env stage base constant) :
    ∃ made, Follows (.shifting stage 0 made fun _ => True) env stage base e (constant.or e) := by
  obtain ⟨made, htrue⟩ := hconstant.result_settles henv hbase
  refine ⟨made, ?_⟩
  rintro bound context _ hc ⟨assignment, rfl⟩
  obtain ⟨l, trace', hl, hsettles⟩ := htrue assignment bound 0
  have hsupplies := Agreement.shifting_supplies stage 0 made bound fun _ => True
  rw [Equiv.swap_self] at hsupplies
  obtain ⟨result, trace, more, hfirst, hsecond, _⟩ :=
    (Expr.result_agrees (henv _ (InstanceId.renames_shift stage 0 made))
      (Agreement.admits_shifting he fun _ _ => trivial) .operand _ _ hc).settles hsupplies
  have hfirst : Settles (e.result env .operand) context (stageSupply stage bound) _ := hfirst
  have hsettles : Settles (constant.result env .operand) _ (stageSupply stage bound) _ := hsettles
  rw [roundResult, Expr.resolution_of_result hfirst, roundResult]
  cases result with
  | ok r =>
    rw [Expr.or_resolution hsettles hsecond]
    exact .resolved r (BinaryOperator.disjunction_isTrue (.inl hl))
  | error halt =>
    rw [Expr.or, Expr.binary_resolution_of_right rfl hsettles hsecond]
    cases halt with
    | unbound missing => exact .unbound missing
    | fatal error => exact .error error

variable {scope : Scope}

theorem outset_of_elsewhere {candidate : Value} (hcandidate : candidate.Elsewhere stage)
    (hparameters : ∀ parameter ∈ scope.parameters, parameter.2.Elsewhere stage) :
    Outset (scope.context.setCandidate candidate) stage := by
  refine ⟨Context.parameter_of_forall (Value.elsewhere_null stage) hparameters,
    fun name value hvalue => ?_, rfl, rfl⟩
  rcases Context.eq_or_mem_of_setCandidate hvalue with rfl | hvalue
  · exact hcandidate
  · cases hvalue

theorem holds_of_keeps [scope.environment.registry.EvaluatesArguments] {condition : Expr}
    {candidate : Value} (hclosed : variableNames condition = [])
    (hkeeps : keeps scope stage condition candidate = .ok true) :
    Expr.Holds (roundResult scope.environment condition stage 0
      (scope.context.setCandidate candidate)) := by
  obtain ⟨_, _, _, _, _, hdecides⟩ := keeps_settles scope stage condition candidate
  rw [hkeeps] at hdecides
  refine (leads_iff_of_not_offered (.inr (Nat.zero_le _)) ?_).mp (hdecides.mp rfl)
  intro name values hresult
  have hmem := (Expr.unbound_of_resolution hresult).1
  simp [hclosed] at hmem

theorem roundResult_ne_error_of_keeps [scope.environment.registry.EvaluatesArguments]
    {condition : Expr} {candidate : Value} {b : Bool}
    (hkeeps : keeps scope stage condition candidate = .ok b) (error : EvalError) :
    roundResult scope.environment condition stage 0 (scope.context.setCandidate candidate) ≠
      .error error := by
  intro hround
  obtain ⟨trace, made, hevaluate⟩ := condition.evaluate_settles scope.environment
    (scope.context.setCandidate candidate) (stageSupply stage 0)
  rw [← roundResult, hround] at hevaluate
  have hrun : Settles (satisfied scope.environment condition scope.declared)
      (scope.context.setCandidate candidate) (stageSupply stage 0) _ :=
    (Settles.beginTurn 0).bind hevaluate.bind_error
  rw [keeps, hrun.outcomeOf_eq] at hkeeps
  cases hkeeps

/-- A disjunct that stops on a variable without values drops a candidate that the other one keeps.
-/
theorem disjunction_drops :
    variableNames (.literal (.boolean true)) = [] ∧
    keeps (membershipScope []) 1 (.literal (.boolean true)) .null = .ok true ∧
    keeps (membershipScope []) 1 ((Expr.var "v").or (.literal (.boolean true))) .null = .ok false ∧
    keeps (membershipScope []) 1 ((Expr.literal (.boolean true)).or (.var "v")) .null = .ok false :=
  ⟨rfl, rfl, rfl, rfl⟩

/-- A candidate that one disjunct without variables keeps is kept by a disjunction, wherever that
disjunct stands, if and only if the other disjunct offers bindings under which it meets no variable
without a value. One without variables drops no candidate. -/
theorem disjunction_keeps_iff (scope : Scope) (stage : Nat) (e constant : Expr) (candidate : Value)
    (henv : scope.environment.Elsewhere stage)
    (hparameters : ∀ parameter ∈ scope.parameters, parameter.2.Elsewhere stage)
    (hcandidate : candidate.Elsewhere stage) (he : e.Elsewhere stage)
    (hconstant : constant.Elsewhere stage) (hclosed : variableNames constant = [])
    (hkeeps : keeps scope stage constant candidate = .ok true) :
    ∀ disjunction ∈ [e.or constant, constant.or e],
      ∀ b, keeps scope stage disjunction candidate = .ok b →
        (b = true ↔ ∃ bindings : List (String × Value),
          (scope.declared ≠ [] → bindings.length ≤ scope.declared.length) ∧
          Offered scope.environment e stage 0 (scope.context.setCandidate candidate) bindings ∧
          Expr.Resolves (roundResult scope.environment e stage bindings.length
            ((scope.context.setCandidate candidate).bindAll bindings))) ∧
        (variableNames e = [] → b = true) := by
  have := henv.evaluatesArguments
  have hbase := outset_of_elsewhere hcandidate hparameters
  have hholds : Constant scope.environment stage (scope.context.setCandidate candidate) constant :=
    ⟨hconstant, hclosed, holds_of_keeps hclosed hkeeps⟩
  have hfollows : ∀ disjunction ∈ [e.or constant, constant.or e], ∃ A : Agreement,
      Follows A scope.environment stage (scope.context.setCandidate candidate) e disjunction ∧
      A.Contexts (scope.context.setCandidate candidate)
        (scope.context.setCandidate candidate) := by
    intro disjunction hdisjunction
    rcases List.mem_cons.mp hdisjunction with rfl | hdisjunction
    · exact ⟨_, follows_or_left henv hbase e hholds, .refl _ _⟩
    · obtain rfl := List.mem_singleton.mp hdisjunction
      obtain ⟨made, hfollows⟩ := follows_or_right henv hbase he hholds
      exact ⟨_, hfollows, hbase.contexts 0 made _⟩
  intro disjunction hdisjunction b hb
  obtain ⟨A, hfollows, hc⟩ := hfollows disjunction hdisjunction
  obtain ⟨_, _, _, _, _, hdecides⟩ := keeps_settles scope stage disjunction candidate
  rw [hb] at hdecides
  have hiff := hdecides.trans (hfollows.leads_iff hc ⟨_, rfl⟩)
  constructor
  · rw [hiff]
    simp only [Leads, Allowed, Nat.zero_add, Classical.or_iff_not_imp_left, ne_eq]
  · intro hnames
    -- The first round cannot stop at a variable of `e`, for there is none, nor at an error.
    refine hiff.mpr (.here (.inr (Nat.zero_le _)) ?_)
    have habsorbs := hfollows 0 _ _ hc ⟨_, rfl⟩
    generalize hround : roundResult scope.environment e stage 0
      (scope.context.setCandidate candidate) = result at habsorbs
    generalize hround' : roundResult scope.environment disjunction stage 0
      (scope.context.setCandidate candidate) = result' at habsorbs
    cases habsorbs with
    | resolved operand h => exact ⟨operand, rfl⟩
    | unbound missing =>
      have hmem := (Expr.unbound_of_resolution hround).1
      simp [hnames] at hmem
    | error error => exact absurd hround' (roundResult_ne_error_of_keeps hb error)

theorem membership_elsewhere (stage : Nat) : membership.Elsewhere stage := by
  intro ρ _
  refine ⟨fun object index value h => ?_, fun name method h => ?_, fun type name method h => ?_⟩
  · cases h
  · cases h
  · have hmethod : method = .collection .contains := by
      simp only [membership, Registry.ownMethod?, Bindings.get?] at h
      split at h
      · simp only [Option.bind_eq_bind, Option.bind_some, Bindings.get?] at h
        split at h
        · exact (Option.some.inj h).symm
        · cases h
      · cases h
    rw [hmethod]
    trivial

/-- Asks whether there is a member of a list of one. -/
def onlyMember : Expr := .callMethod (.literal (.list [.boolean true])) "contains" [.var "v"]

theorem onlyMember_elsewhere : onlyMember.Elsewhere 1 := by
  have htrue : Value.Elsewhere 1 (.boolean true) := .intro (by simp) (by simp [Value.children])
  have hlist : Value.Elsewhere 1 (.list [.boolean true]) :=
    .intro (by simp) (by simpa [Value.children] using htrue)
  refine .node (by simp [onlyMember, Expr.callMethod]) fun child hchild => ?_
  have hcases : child = .literal (.list [.boolean true]) ∨ child = .var "v" := by
    simpa [onlyMember, Expr.callMethod, Expr.children] using hchild
  rcases hcases with rfl | rfl
  · refine .node ?_ (by simp [Expr.children])
    rintro value ⟨⟩
    exact hlist
  · exact .node (by simp) (by simp [Expr.children])

theorem disjunction_keeps_iff_onlyMember :
    keeps (membershipScope ["v"]) 1 (.literal (.boolean true)) .null = .ok true ∧
    keeps (membershipScope ["v"]) 1 (onlyMember.or (.literal (.boolean true))) .null = .ok true ∧
    ∃ bindings : List (String × Value), (["v"] ≠ [] → bindings.length ≤ 1) ∧
      Offered membership onlyMember 1 0 ((membershipScope ["v"]).context.setCandidate .null)
        bindings ∧
      Expr.Resolves (roundResult membership onlyMember 1 bindings.length
        (((membershipScope ["v"]).context.setCandidate .null).bindAll bindings)) := by
  have hconstant : (Expr.literal (.boolean true)).Elsewhere 1 := by
    refine .node ?_ (by simp [Expr.children])
    rintro value ⟨⟩
    exact .intro (by simp) (by simp [Value.children])
  have hkeeps : keeps (membershipScope ["v"]) 1 (.literal (.boolean true)) .null = .ok true := rfl
  have hor : keeps (membershipScope ["v"]) 1 (onlyMember.or (.literal (.boolean true))) .null =
      .ok true := rfl
  have hiff := disjunction_keeps_iff (membershipScope ["v"]) 1 onlyMember (.literal (.boolean true))
    .null (membership_elsewhere 1) (by simp [membershipScope]) (Value.elsewhere_null 1)
    onlyMember_elsewhere hconstant rfl hkeeps _ (by simp) true hor
  exact ⟨hkeeps, hor, hiff.1.mp rfl⟩

end Cursor

end ObjectQuery
