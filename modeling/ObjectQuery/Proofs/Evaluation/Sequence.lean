import ObjectQuery.Proofs.Evaluation.Resolution
import ObjectQuery.Proofs.Value.Description

/-!
Evaluations one after another on one machine. Main statement: none of them disturbs the context, so
each comes to what it comes to alone, up to the names of the objects that those before it made.
-/

namespace ObjectQuery

variable {first : InstanceId} {made : Nat} {env : Environment} {context : Context}

/-! ### Names that are still to be given -/

namespace InstanceId

/-- Moves the names from `first` on by so many objects made before, and no other name. -/
def delay (first : InstanceId) (made : Nat) (id : InstanceId) : InstanceId :=
  if id.stage = first.stage ∧ id.turn = first.turn ∧ first.serial ≤ id.serial then id.advance made
  else id

theorem delay_advance (first : InstanceId) (made more : Nat) :
    first.delay made (first.advance more) = (first.advance made).advance more := by
  simp [delay, advance, Nat.add_right_comm]

theorem delay_eq_self {id : InstanceId} (h : ∀ more, id ≠ first.advance more) :
    first.delay made id = id := by
  rw [delay, if_neg]
  rintro ⟨hstage, hturn, hserial⟩
  apply h (id.serial - first.serial)
  rcases id with ⟨stage, turn, serial⟩
  simp only at hstage hturn hserial
  simp [advance, hstage, hturn]
  omega

theorem delay_injective (first : InstanceId) (made : Nat) :
    Function.Injective (first.delay made) := by
  rintro ⟨stage, turn, serial⟩ ⟨stage', turn', serial'⟩ h
  simp only [delay, advance] at h
  split at h <;> split at h <;> simp only [mk.injEq] at h ⊢ <;> omega

@[simp] theorem delay_zero (first : InstanceId) : first.delay 0 = id := by
  funext id
  simp [delay, advance]

end InstanceId

/-- A value that holds no object with a name from `first` on. -/
inductive Value.MadeBefore (first : InstanceId) : Value → Prop where
  | intro {value : Value}
    (id : ∀ id typeName fields identity, value = object id typeName fields identity →
      ∀ more, id ≠ first.advance more)
    (children : ∀ child ∈ value.children, MadeBefore first child) : MadeBefore first value

theorem Value.MadeBefore.rename_eq {value : Value} (h : value.MadeBefore first) (made : Nat) :
    value.rename (first.delay made) = value := by
  induction h with
  | intro hid _ ih =>
    exact rename_eq_self _
      (fun id typeName fields identity h => InstanceId.delay_eq_self (hid _ _ _ _ h)) ih

theorem Value.madeBefore_of_isFlat {value : Value} (h : value.isFlat) :
    value.MadeBefore first := by
  cases value with
  | array items | list items | set items | map entries => cases h
  | object id typeName fields identity => cases h
  | _ => exact .intro (by simp) (by simp [children])

/-- The values that a context gives to names hold no object with a name from `first` on. -/
structure Context.MadeBefore (first : InstanceId) (context : Context) : Prop where
  parameters : ∀ name, (context.parameter name).MadeBefore first
  state : ∀ name, ∀ value ∈ context.state.get? name, value.MadeBefore first
  assignment : ∀ name, ∀ value ∈ context.assignment.get? name, value.MadeBefore first
  resultSet : ∀ members ∈ context.resultSet, ∀ member ∈ members, member.MadeBefore first

/-- The values that an expression gives itself hold no object with a name from `first` on. -/
def Expr.MadeBefore (first : InstanceId) (e : Expr) : Prop :=
  e.All fun node => ∀ value, node = .literal value → value.MadeBefore first

/-- What evaluations read holds no object with a name from `first` on, and depends on no such
name. -/
def Environment.MadeBefore (first : InstanceId) (env : Environment) : Prop :=
  ∀ made, env.Respects (first.delay made)

/-! ### Evaluations behind others -/

namespace Agreement

/-- Equality up to the names of the objects made from `first` on, which come later in the second
evaluation. -/
def delaying (first : InstanceId) (made : Nat) : Agreement :=
  ⟨first.delay made, first.delay_injective made, fun _ => True, True⟩

theorem delaying_supplies (first : InstanceId) (made : Nat) :
    (delaying first made).Supplies first (first.advance made) :=
  fun more => first.delay_advance made more

theorem Contexts.delaying (h : context.MadeBefore first) (made : Nat) :
    (delaying first made).Contexts context context :=
  contexts_self (fun name => (h.parameters name).rename_eq made)
    (fun name value hvalue => (h.state name value hvalue).rename_eq made)
    (fun name value hvalue => (h.assignment name value hvalue).rename_eq made)
    fun members hmembers member hmember =>
      (h.resultSet members hmembers member hmember).rename_eq made

theorem admits_delaying {e : Expr} (h : e.MadeBefore first) (made : Nat) :
    e.All (delaying first made).Admits :=
  admits_of_rename_eq (h.imp fun _ hnode value hvalue => (hnode value hvalue).rename_eq made)
    (fun _ _ => trivial) trivial

end Agreement

namespace Expr

/-- Behind so many objects made by others an expression comes to the same, its own objects named
later. -/
theorem resolution_advance (henv : env.MadeBefore first) {e : Expr} (he : e.MadeBefore first)
    (hcontext : context.MadeBefore first) (made : Nat) :
    e.resolution env context (first.advance made) =
      (e.resolution env context first).map (.rename (first.delay made)) := by
  obtain ⟨result, trace, more, hfirst, hsecond, _⟩ :=
    evaluate_agrees (henv made) (Agreement.admits_delaying he made)
      (Agreement.Contexts.delaying hcontext made) (Agreement.delaying_supplies first made)
  rw [resolution, hsecond.outcomeOf_eq, resolution, hfirst.outcomeOf_eq]
  rfl

/-- Evaluates expressions one after another on one machine, behind failures as well. -/
def evaluateEach (env : Environment) : List Expr → Machine →
    List (Except EvalError Resolution) × Machine
  | [], machine => ([], machine)
  | e :: rest, machine =>
    let (result, after) := completion (e.evaluate env) machine
    let (results, last) := evaluateEach env rest after
    (result :: results, last)

theorem evaluateEach_advance (henv : env.MadeBefore first) (hcontext : context.MadeBefore first)
    {es : List Expr} (hes : ∀ e ∈ es, e.MadeBefore first) (made : Nat) (stack : List Operand)
    (trace : Trace) :
    List.Forall₂ (fun e result => ∃ made, result =
        (e.resolution env context first).map (.rename (first.delay made))) es
      (evaluateEach env es ⟨context, stack, trace, first.advance made⟩).1 ∧
    (evaluateEach env es ⟨context, stack, trace, first.advance made⟩).2.context = context := by
  have := (henv 0).evaluatesArguments
  induction es generalizing made trace with
  | nil => exact ⟨.nil, rfl⟩
  | cons e rest ih =>
    obtain ⟨added, more, hcompletion⟩ :=
      e.completion_evaluate env ⟨context, stack, trace, first.advance made⟩
    have hresult := resolution_advance henv (hes e (by simp)) hcontext made
    rw [InstanceId.advance_advance] at hcompletion
    obtain ⟨hresults, hlast⟩ :=
      ih (fun e he => hes e (by simp [he])) (made + more) (trace ++ added)
    simp only [evaluateEach, hcompletion]
    exact ⟨.cons ⟨made, hresult⟩ hresults, hlast⟩

/-- Whatever an evaluation comes to, the context is afterwards what it was before. So of expressions
that are evaluated one after another each has the result that it has alone in the first context; the
objects that it makes are named behind those made before. -/
theorem evaluateEach_undisturbed (env : Environment) [env.registry.EvaluatesArguments] :
    (∀ (e : Expr) (machine : Machine),
      (completion (e.evaluate env) machine).2.context = machine.context) ∧
    ∀ (es : List Expr) (machine : Machine), env.MadeBefore machine.supply →
      machine.context.MadeBefore machine.supply → (∀ e ∈ es, e.MadeBefore machine.supply) →
      List.Forall₂ (fun e result => ∃ made, result =
          (e.resolution env machine.context machine.supply).map
            (.rename (machine.supply.delay made))) es (evaluateEach env es machine).1 ∧
      (evaluateEach env es machine).2.context = machine.context := by
  constructor
  · intro e machine
    obtain ⟨trace, made, hcompletion⟩ := e.completion_evaluate env machine
    rw [hcompletion]
  · intro es machine henv hcontext hes
    have hzero : machine.supply.advance 0 = machine.supply := rfl
    simpa only [hzero] using evaluateEach_advance henv hcontext hes 0 machine.stack machine.trace

/-- Objects of one type and no methods. -/
def points : Environment := ⟨⟨[("Point", ⟨"Point", none, [], none, []⟩)], []⟩, .empty, .detached⟩

instance : points.registry.EvaluatesArguments :=
  inferInstanceAs (Registry.empty.EvaluatesArguments)

theorem points_madeBefore (first : InstanceId) : points.MadeBefore first := by
  intro made
  refine ⟨?_, ?_, ?_⟩
  · intro object index value h
    cases h
  · intro name method h
    cases h
  · intro type name method h
    cases h

/-- Between two new objects a sum that stops at a member that is no number. -/
def pointsAroundSum : List Expr :=
  [.creator "Point" [], .invoke none "sum" [.unary .neg (.path none ["this"])] none,
    .creator "Point" []]

theorem evaluateEach_undisturbed_pointsAroundSum :
    let context : Context := ⟨"this", [], [], [], some [.int 1, .boolean true]⟩
    let machine := Machine.start context .empty ⟨1, 0, 0⟩
    (completion (Expr.evaluate points (.creator "Point" [])) machine).2.context = context ∧
    List.Forall₂ (fun e result => ∃ made, result =
        (e.resolution points context machine.supply).map (.rename (machine.supply.delay made)))
      pointsAroundSum (evaluateEach points pointsAroundSum machine).1 ∧
    (evaluateEach points pointsAroundSum machine).2.context = context := by
  intro context machine
  obtain ⟨hone, heach⟩ := evaluateEach_undisturbed points
  have hflat : ∀ member ∈ [Value.int 1, .boolean true], member.isFlat := by decide
  have hcontext : context.MadeBefore machine.supply := by
    refine ⟨fun _ => Value.madeBefore_of_isFlat rfl, ?_, ?_, ?_⟩
    · rintro name value ⟨⟩
    · rintro name value ⟨⟩
    · rintro members ⟨⟩ member hmember
      exact Value.madeBefore_of_isFlat (hflat member hmember)
  have hes : ∀ e ∈ pointsAroundSum, e.MadeBefore machine.supply := by
    intro e he
    obtain rfl | rfl : e = .creator "Point" [] ∨
        e = .invoke none "sum" [.unary .neg (.path none ["this"])] none := by
      simpa [pointsAroundSum, or_comm] using he
    · exact .node (by simp) (by simp [children])
    · refine .node (by simp) fun child hchild => ?_
      obtain rfl : child = .unary .neg (.path none ["this"]) := by simpa [children] using hchild
      refine .node (by simp) fun child hchild => ?_
      obtain rfl : child = .path none ["this"] := by simpa [children] using hchild
      exact .node (by simp) (by simp [children])
  exact ⟨hone _ machine, heach pointsAroundSum machine (points_madeBefore _) hcontext hes⟩

end Expr

end ObjectQuery
