import ObjectQuery.Proofs.Evaluation.Navigation

/-!
Roots of paths that are cast, any number of times. Main statement: casts are checks. A root that
passes all of them is followed as if there were none; one that fails is reported once, for the
innermost type that it fails, and ends the path; and what was no value before is none behind them.
-/

namespace ObjectQuery

variable {env : Environment} {machine after : Machine} {value : Value} {type : String}
  {types : List String}

namespace Environment

/-! ### Casts of an operand -/

/-- A cast to the type leaves the value as it is. -/
def Passes (env : Environment) (value : Value) (type : String) : Prop :=
  value.isNull ∨ env.catalog.isInstance value type

theorem castTo_of_passes (h : env.Passes value type) :
    env.castTo type (.value value) = pure (.value value) := by
  rw [castTo, if_pos (by simpa [Passes] using h)]

theorem castTo_of_fails (h : ¬ env.Passes value type) :
    env.castTo type (.value value) =
      Eval.unresolved (.failedCast value.describeType type) := by
  rw [castTo, if_neg (by simpa [Passes] using h)]

/-- Casts an operand to one type after another. -/
def castThrough (env : Environment) (types : List String) (root : Operand) : Eval Operand :=
  types.foldlM (fun root type => env.castTo type root) root

theorem castThrough_cons (env : Environment) (type : String) (types : List String)
    (root : Operand) :
    env.castThrough (type :: types) root = env.castTo type root >>= env.castThrough types :=
  List.foldlM_cons

theorem castThrough_unresolved (env : Environment) (types : List String) :
    env.castThrough types .unresolved = pure .unresolved := by
  induction types with
  | nil => rfl
  | cons type types ih => rw [castThrough_cons, castTo, pure_bind, ih]

theorem castThrough_of_passes (h : ∀ type ∈ types, env.Passes value type) :
    env.castThrough types (.value value) = pure (.value value) := by
  induction types with
  | nil => rfl
  | cons type types ih =>
    obtain ⟨hfirst, hrest⟩ := List.forall_mem_cons.mp h
    rw [castThrough_cons, castTo_of_passes hfirst, pure_bind, ih hrest]

theorem castThrough_of_fails {passed : List String}
    (hpassed : ∀ type ∈ passed, env.Passes value type) (hfails : ¬ env.Passes value type)
    (rest : List String) :
    env.castThrough (passed ++ type :: rest) (.value value) =
      Eval.unresolved (.failedCast value.describeType type) := by
  induction passed with
  | nil =>
    rw [List.nil_append, castThrough_cons, castTo_of_fails hfails, Eval.unresolved, bind_assoc]
    simp only [pure_bind, castThrough_unresolved]
  | cons first passed ih =>
    obtain ⟨hfirst, hrest⟩ := List.forall_mem_cons.mp hpassed
    rw [List.cons_append, castThrough_cons, castTo_of_passes hfirst, pure_bind, ih hrest]

end Environment

namespace Expr

open Environment

variable {e : Expr} {targets : List Expr} {operand : Operand} {halt : Halt}

/-! ### Casts of an expression -/

/-- Casts an expression to one type after another, the first one innermost. -/
def castAll (e : Expr) (targets : List Expr) : Expr := targets.foldl (.binary .cast · ·) e

/-- The operands on the right of casts stand for these types. -/
def AreTypes (env : Environment) (targets : List Expr) (types : List String) : Prop :=
  List.Forall₂ (fun target type => env.typeOperand .cast target = .ok type) targets types

theorem result_cast {target : Expr} (h : env.typeOperand .cast target = .ok type) :
    (binary .cast e target).result env .root = e.result env .root >>= env.castTo type := by
  simp only [result, if_true, h]
  rfl

theorem result_castAll (htypes : AreTypes env targets types) (e : Expr) :
    (e.castAll targets).result env .root = e.result env .root >>= env.castThrough types := by
  induction htypes generalizing e with
  | nil => exact (bind_pure _).symm
  | @cons target type targets types htype _ ih =>
    have hfold : e.castAll (target :: targets) = (binary .cast e target).castAll targets := rfl
    rw [hfold, ih, result_cast htype, bind_assoc]
    exact bind_congr fun root => (castThrough_cons env type types root).symm

theorem settles_result (env : Environment) [env.registry.EvaluatesArguments] (e : Expr)
    (position : Position) (context : Context) (supply : InstanceId) :
    ∃ result trace after,
      Settles (e.result env position) context supply ⟨result, context, trace, after⟩ := by
  obtain ⟨result, trace, made, hsettles, -, -⟩ :=
    (result_agrees (Environment.Respects.refl env) e.admits_refl position context context
      (.refl _ context)).settles (.refl _ supply)
  exact ⟨result, trace, _, hsettles⟩

theorem stack_of_result [env.registry.EvaluatesArguments] {position : Position}
    (h : e.result env position machine = .ok operand after) : after.stack = machine.stack := by
  obtain ⟨context, stack, trace, supply⟩ := machine
  obtain ⟨result, more, last, leftover, hsettles⟩ := e.settles_result env position context supply
  rw [hsettles] at h
  cases result with
  | ok operand =>
    injection h with _ hafter
    rw [← hafter]
  | error halt => cases h

section Path

variable {segments : List String} (htypes : AreTypes env targets types)

include htypes

theorem result_path_castAll :
    (path (some (e.castAll targets)) segments).result env .operand =
      e.result env .root >>= fun root =>
        env.castThrough types root >>= fun root => env.pathFrom root segments := by
  have hpath : (path (some (e.castAll targets)) segments).result env .operand =
      (e.castAll targets).result env .root >>= fun root => env.pathFrom root segments := rfl
  rw [hpath, result_castAll htypes, bind_assoc]

theorem evaluate_castAll_of_passes (hroot : e.result env .root machine = .ok (.value value) after)
    (h : ∀ type ∈ types, env.Passes value type) :
    (path (some (e.castAll targets)) segments).evaluate env machine =
      (path (some e) segments).evaluate env machine := by
  refine evaluate_congr ?_
  rw [result_path_castAll htypes]
  simp only [result, Bind.bind, EStateM.bind, hroot, castThrough_of_passes h]
  rfl

theorem evaluate_castAll_of_halt (hroot : e.result env .root machine = .error halt after) :
    (path (some (e.castAll targets)) segments).evaluate env machine =
      (path (some e) segments).evaluate env machine := by
  refine evaluate_congr ?_
  rw [result_path_castAll htypes]
  simp only [result, Bind.bind, EStateM.bind, hroot]

theorem completion_castAll_of_fails [env.registry.EvaluatesArguments] {passed rest : List String}
    (hroot : e.result env .root machine = .ok (.value value) after)
    (hsplit : types = passed ++ type :: rest) (hpassed : ∀ type ∈ passed, env.Passes value type)
    (hfails : ¬ env.Passes value type) :
    completion ((path (some (e.castAll targets)) segments).evaluate env) machine =
      (.ok (.resolved .unresolved), after.warn (.failedCast value.describeType type)) := by
  have hstack := stack_of_result hroot
  refine completion_evaluate_of_result ?_ hstack
  rw [result_path_castAll htypes, hsplit]
  simp only [Bind.bind, EStateM.bind, hroot, castThrough_of_fails hpassed hfails rest]
  rfl

theorem completion_castAll_of_unresolved [env.registry.EvaluatesArguments]
    (hroot : e.result env .root machine = .ok .unresolved after) :
    completion ((path (some (e.castAll targets)) segments).evaluate env) machine =
      (.ok (.resolved .unresolved), after) := by
  refine completion_evaluate_of_result ?_ (stack_of_result hroot)
  rw [result_path_castAll htypes]
  simp only [Bind.bind, EStateM.bind, hroot, castThrough_unresolved]
  rfl

end Path

theorem result_var_root {name : String} (h : machine.context.binding? name = none) :
    (var name).result env .root machine =
      .ok .unresolved (machine.warn (.unboundVariable name)) := by
  rw [result, variableOperand, Eval.context_bind, h]
  rfl

/-- Behind a root that is cast to types, one after another, a path runs as without the casts if the
root is null or an instance of all these types, and also if the root halts. A root of another type
makes the path unresolved and is reported once, with the innermost of the types that it is no
instance of. Behind a root that cannot be resolved the casts do nothing, and a variable without a
value is such a root. -/
theorem casts_checked (env : Environment) [env.registry.EvaluatesArguments] {targets : List Expr}
    {types : List String} (htypes : AreTypes env targets types) (e : Expr) (segments : List String)
    (machine : Machine) :
    let run := fun root => completion ((path (some root) segments).evaluate env) machine
    let root := e.result env .root machine
    (∀ value after, root = .ok (.value value) after →
      value.isNull ∨ (∀ type ∈ types, env.catalog.isInstance value type) →
        run (e.castAll targets) = run e) ∧
    (∀ value after passed type rest, root = .ok (.value value) after →
      types = passed ++ type :: rest → (∀ type ∈ passed, env.catalog.isInstance value type) →
      ¬ value.isNull → ¬ env.catalog.isInstance value type →
        run (e.castAll targets) = (.ok (.resolved .unresolved),
          after.warn (.failedCast value.describeType type))) ∧
    (∀ after, root = .ok .unresolved after →
      run (e.castAll targets) = (.ok (.resolved .unresolved), after)) ∧
    (∀ halt after, root = .error halt after → run (e.castAll targets) = run e) ∧
    (∀ name, e = var name → machine.context.binding? name = none →
      run (e.castAll targets) =
        (.ok (.resolved .unresolved), machine.warn (.unboundVariable name))) := by
  intro run root
  refine ⟨?_, ?_, ?_, ?_, ?_⟩
  · intro value after hroot h
    have hpasses : ∀ type ∈ types, env.Passes value type :=
      fun type htype => h.imp_right fun h => h type htype
    simp only [run, completion, evaluate_castAll_of_passes htypes hroot hpasses]
  · intro value after passed type rest hroot hsplit hpassed hnull hfails
    exact completion_castAll_of_fails htypes hroot hsplit (fun type h => .inr (hpassed type h))
      (not_or.mpr ⟨hnull, hfails⟩)
  · intro after hroot
    exact completion_castAll_of_unresolved htypes hroot
  · intro halt after hroot
    simp only [run, completion, evaluate_castAll_of_halt htypes hroot]
  · rintro name rfl hunbound
    exact completion_castAll_of_unresolved htypes (result_var_root hunbound)

/-- Managers and directors are persons. -/
def ranks : Catalog where
  classes := [("org.acme.Person", ⟨"org.acme.Person", none, [], none, []⟩),
    ("org.acme.Manager", ⟨"org.acme.Manager", some "Person", [], none, []⟩),
    ("org.acme.Director", ⟨"org.acme.Director", some "Person", [], none, []⟩)]
  imports := [("Person", "org.acme.Person"), ("Manager", "org.acme.Manager"),
    ("Director", "org.acme.Director")]

/-- A manager passes as a person and as a manager. As a director a manager fails, and is not asked
whether it is a text. -/
theorem casts_checked_manager :
    let env : Environment := ⟨ranks, .empty, .detached⟩
    let manager : Value := .object ⟨0, 0, 0⟩ "org.acme.Manager" [("salary", .int 100)] none
    let machine := Machine.start ⟨"this", [], [("this", manager)], [], none⟩ .empty default
    let run := fun root => completion ((path (some root) ["salary"]).evaluate env) machine
    let this := path none ["this"]
    let upward := [typeRef "Person", path none ["org", "acme", "Manager"]]
    let sideward := [typeRef "Person", typeRef "Director", typeRef "String"]
    AreTypes env upward ["org.acme.Person", "org.acme.Manager"] ∧
      AreTypes env sideward ["org.acme.Person", "org.acme.Director", "String"] ∧
      this.result env .root machine = .ok (.value manager) machine ∧
      run (this.castAll upward) = run this ∧
      run (this.castAll sideward) = (.ok (.resolved .unresolved),
        machine.warn (.failedCast "org.acme.Manager" "org.acme.Director")) := by
  intro env manager machine run this upward sideward
  have hupward : AreTypes env upward ["org.acme.Person", "org.acme.Manager"] :=
    .cons (by decide +kernel) (.cons (by decide +kernel) .nil)
  have hsideward : AreTypes env sideward ["org.acme.Person", "org.acme.Director", "String"] :=
    .cons (by decide +kernel) (.cons (by decide +kernel) (.cons (by decide +kernel) .nil))
  have hroot : this.result env .root machine = .ok (.value manager) machine := rfl
  obtain ⟨hpasses, -⟩ := casts_checked env hupward this ["salary"] machine
  obtain ⟨-, hfails, -⟩ := casts_checked env hsideward this ["salary"] machine
  exact ⟨hupward, hsideward, hroot, hpasses manager machine hroot (.inr (by decide +kernel)),
    hfails manager machine ["org.acme.Person"] "org.acme.Director" ["String"] hroot rfl
      (by decide +kernel) (by decide +kernel) (by decide +kernel)⟩

end Expr

end ObjectQuery
