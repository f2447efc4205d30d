import ObjectQuery.Proofs.Evaluation.Resolution

/-!
Paths that are followed in two parts. Main statement: a path comes to what its rest comes to behind
a qualifier that is its beginning. Nothing is loaded or reported twice and nothing is left out; only
a path that has nowhere to start is reported by the name that it has as a whole.
-/

namespace ObjectQuery

variable {env : Environment} {machine after : Machine}

theorem Eval.context_bind {α : Type} (next : Context → Eval α) (machine : Machine) :
    (Eval.context >>= next) machine = next machine.context machine :=
  rfl

namespace Environment

/-! ### Members -/

@[simp] theorem navigate_nil (env : Environment) (value : Value) :
    env.navigate value [] = pure (.value value) := by
  cases value <;> rfl

@[simp] theorem navigate_null (env : Environment) (segments : List String) :
    env.navigate .null segments = pure (.value .null) := by
  cases segments <;> rfl

theorem navigate_object (env : Environment) (id : InstanceId) (typeName : String)
    (fields : List (String × Value)) (identity : Option Value) (segment : String)
    (rest : List String) :
    env.navigate (.object id typeName fields identity) (segment :: rest) =
      (env.member ⟨id, typeName, fields, identity⟩ segment >>= fun found =>
        match found with
        | some value => env.navigate value rest
        | none => Eval.unresolved (.unresolvedMember segment typeName)) :=
  rfl

theorem navigate_map (env : Environment) (entries : List (Value × Value)) (segment : String)
    (rest : List String) :
    env.navigate (.map entries) (segment :: rest) =
      match textEntry? entries segment with
      | some value => env.navigate value rest
      | none => Eval.unresolved (.unresolvedMember segment DataType.map.name) :=
  rfl

theorem unresolved_pathFrom (env : Environment) (warning : Warning) (segments : List String) :
    (Eval.unresolved warning >>= fun root => env.pathFrom root segments) =
      Eval.unresolved warning :=
  rfl

theorem navigate_append (env : Environment) (value : Value) (first rest : List String) :
    env.navigate value (first ++ rest) =
      env.navigate value first >>= fun root => env.pathFrom root rest := by
  induction first generalizing value with
  | nil => rw [navigate_nil, pure_bind]; rfl
  | cons segment segments ih =>
    rw [List.cons_append]
    cases value with
    | null => rw [navigate_null, navigate_null, pure_bind, pathFrom, navigate_null]
    | object id typeName fields identity =>
      rw [navigate_object, navigate_object, bind_assoc]
      refine bind_congr fun found => ?_
      cases found with
      | none => exact (unresolved_pathFrom env _ rest).symm
      | some value => exact ih value
    | map entries =>
      rw [navigate_map, navigate_map]
      cases textEntry? entries segment with
      | none => exact (unresolved_pathFrom env _ rest).symm
      | some value => exact ih value
    | _ => rfl

/-! ### Roots -/

theorem pathRoot_append (context : Context) {first : List String} (hfirst : first ≠ [])
    (rest : List String) :
    pathRoot context (first ++ rest) =
      ((pathRoot context first).1, (pathRoot context first).2 ++ rest) := by
  obtain ⟨name, segments, rfl⟩ := List.exists_cons_of_ne_nil hfirst
  rw [List.cons_append, pathRoot, pathRoot]
  split
  · rfl
  · cases context.state.get? name <;> rfl

theorem path_of_root {segments remaining : List String} {root : Value}
    (h : pathRoot machine.context segments = (some root, remaining)) :
    env.path segments machine = env.navigate root remaining machine := by
  rw [path, Eval.context_bind, h]

theorem path_of_rootless {segments : List String}
    (h : (pathRoot machine.context segments).1 = none) :
    env.path segments machine = .ok .unresolved
      (machine.warn (.unresolvedMember (Expr.pathText segments) "no candidate")) := by
  have hroot : pathRoot machine.context segments = (none, (pathRoot machine.context segments).2) :=
    Prod.ext h rfl
  rw [path, Eval.context_bind, hroot]
  rfl

theorem path_append {first : List String} (hfirst : first ≠ []) (rest : List String) {root : Value}
    (hroot : (pathRoot machine.context first).1 = some root) :
    env.path (first ++ rest) machine =
      (env.path first >>= fun root => env.pathFrom root rest) machine := by
  have hbegin : pathRoot machine.context first = (some root, (pathRoot machine.context first).2) :=
    Prod.ext hroot rfl
  have hwhole := pathRoot_append machine.context hfirst rest
  rw [hroot] at hwhole
  rw [path_of_root hwhole, navigate_append]
  simp only [Bind.bind, EStateM.bind]
  rw [path_of_root hbegin]

end Environment

/-! ### Paths as expressions -/

namespace Expr

open Environment

theorem evaluate_congr {e e' : Expr}
    (h : e.result env .operand machine = e'.result env .operand machine) :
    e.evaluate env machine = e'.evaluate env machine := by
  have hvisit : e.visit env machine = e'.visit env machine := by
    simp only [visit, Bind.bind, EStateM.bind, h]
  simp only [evaluate, Eval.resolve, hvisit]

theorem completion_evaluate_of_result {e : Expr} {operand : Operand}
    (h : e.result env .operand machine = .ok operand after) (hstack : after.stack = machine.stack) :
    completion (e.evaluate env) machine = (.ok (.resolved operand), after) := by
  have hvisit : e.visit env machine = .ok () { after with stack := operand :: after.stack } := by
    simp only [visit, Bind.bind, EStateM.bind, h]
    rfl
  obtain ⟨context, stack, trace, supply⟩ := after
  obtain rfl : stack = machine.stack := hstack
  simp [completion, evaluate, Eval.resolve, hvisit, Machine.depth, Machine.truncate]

/-- A path comes to the same when it is followed from the value of its beginning: to one value, one
gap or one failure to load, with as many loads. From a root on there is no difference at all;
without a root both cannot be resolved, and each is reported by its own name. -/
theorem path_append_alike (env : Environment) {first : List String} (hfirst : first ≠ [])
    (rest : List String) (machine : Machine) :
    let joined := completion ((path none (first ++ rest)).evaluate env) machine
    let nested := completion ((path (some (path none first)) rest).evaluate env) machine
    joined.1 = nested.1 ∧ joined.2.trace.loads = nested.2.trace.loads ∧
      ((pathRoot machine.context first).1.isSome → joined = nested) ∧
      ((pathRoot machine.context first).1 = none →
        joined = (.ok (.resolved .unresolved),
          machine.warn (.unresolvedMember (pathText (first ++ rest)) "no candidate")) ∧
        nested = (.ok (.resolved .unresolved),
          machine.warn (.unresolvedMember (pathText first) "no candidate"))) := by
  intro joined nested
  cases hroot : (pathRoot machine.context first).1 with
  | some root =>
    have hresult : (path none (first ++ rest)).result env .operand machine =
        (path (some (path none first)) rest).result env .operand machine :=
      Environment.path_append hfirst rest hroot
    have heq : joined = nested := by
      simp only [joined, nested, completion, evaluate_congr hresult]
    rw [heq]
    exact ⟨rfl, rfl, fun _ => rfl, fun h => absurd h (Option.some_ne_none root)⟩
  | none =>
    have hwhole : (pathRoot machine.context (first ++ rest)).1 = none := by
      rw [pathRoot_append machine.context hfirst rest, hroot]
    have hjoined : joined = (.ok (.resolved .unresolved),
        machine.warn (.unresolvedMember (pathText (first ++ rest)) "no candidate")) :=
      completion_evaluate_of_result (path_of_rootless hwhole) rfl
    have hnested : nested = (.ok (.resolved .unresolved),
        machine.warn (.unresolvedMember (pathText first) "no candidate")) := by
      refine completion_evaluate_of_result ?_ rfl
      change (env.path first >>= fun root => env.pathFrom root rest) machine = _
      simp only [Bind.bind, EStateM.bind, path_of_rootless hroot]
      rfl
    rw [hjoined, hnested]
    exact ⟨rfl, rfl, fun h => absurd h Bool.false_ne_true, fun _ => ⟨rfl, rfl⟩⟩

/-- Two stored persons, of whom the second is the boss of the first. -/
def staff : ObjectStore where
  layouts := [("Person", ["boss", "name"])]
  rows := [(⟨"Person", "1"⟩, [.object ⟨0, 0, 1⟩ "Person" [] (some (.int 2)), .string "Ann"]),
    (⟨"Person", "2"⟩, [.null, .string "Bob"])]

/-- The name of the boss takes two loads, whichever way it is asked for. -/
theorem path_append_alike_bossName :
    let env : Environment := ⟨.empty, .empty, .stored staff⟩
    let context : Context :=
      ⟨"this", [], [("this", .object ⟨0, 0, 0⟩ "Person" [] (some (.int 1)))], [], none⟩
    let machine := Machine.start context .empty default
    let joined := completion ((path none ["boss", "name"]).evaluate env) machine
    let nested := completion ((path (some (path none ["boss"])) ["name"]).evaluate env) machine
    ["boss"] ≠ [] ∧ joined = nested ∧
      joined = (.ok (.resolved (.value (.string "Bob"))), ⟨context, [], ⟨[], 2⟩, default⟩) := by
  intro env context machine joined nested
  have hne : ["boss"] ≠ [] := List.cons_ne_nil _ _
  obtain ⟨-, -, hrooted, -⟩ := path_append_alike env hne ["name"] machine
  exact ⟨hne, hrooted rfl, rfl⟩

end Expr

end ObjectQuery
