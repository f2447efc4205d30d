import ObjectQuery.Method.Registry
import ObjectQuery.Proofs.Evaluation.Agreement

/-!
Methods of a program that do nothing but have their arguments evaluated. Scripts say what such a
method does. A method can do more: it can take the halt of an operand for a result and leave what
the argument has pushed, read and change the context, and look at the expressions of its call.
-/

namespace ObjectQuery

/-- What a method does that has its `n` arguments evaluated, one after another and as it likes. -/
inductive Script (n : Nat) where
  | answer (result : Operand)
  | fail (error : EvalError)
  | warn (warning : Warning) (next : Script n)
  /-- Goes on with the operand of an argument. If the argument halts, so does the method. -/
  | operand (index : Fin n) (next : Operand → Script n)
  /-- As before, but the argument can be a variable without a value, which offers the candidates. -/
  | member (index : Fin n) (candidates : List Value) (next : Operand → Script n)
  /-- Goes on with what an argument comes to, also if it stops or fails. -/
  | evaluate (index : Fin n) (next : Except EvalError Resolution → Script n)

/-- The scripts of a method, by the name that it is called by, its receiver and the number of
arguments. -/
abbrev Scripts := String → Value → (n : Nat) → Script n

namespace Script

variable {n : Nat}

def run (argument : Fin n → Argument) : Script n → Eval Operand
  | answer result => return result
  | fail error => Eval.fail error
  | warn warning next => do
    Eval.warn warning
    run argument next
  | operand index next => do run argument (next (← (argument index).operand))
  | member index candidates next => do run argument (next (← (argument index).member candidates))
  | evaluate index next => do run argument (next (← (argument index).evaluate))

/-- The second script goes on for renamed instances, and behind errors that are alike, as the first
one does. -/
inductive Corresponds (ρ : InstanceId → InstanceId) (alike : EvalError → EvalError → Prop) :
    Script n → Script n → Prop where
  | answer (operand : Operand) :
    Corresponds ρ alike (.answer operand) (.answer (operand.rename ρ))
  | fail {error error' : EvalError} (h : alike error error') :
    Corresponds ρ alike (.fail error) (.fail error')
  | warn (warning : Warning) {next next' : Script n} (h : Corresponds ρ alike next next') :
    Corresponds ρ alike (.warn warning next) (.warn warning next')
  | operand (index : Fin n) {next next' : Operand → Script n}
    (h : ∀ operand, Corresponds ρ alike (next operand) (next' (operand.rename ρ))) :
    Corresponds ρ alike (.operand index next) (.operand index next')
  | member (index : Fin n) (candidates : List Value) {next next' : Operand → Script n}
    (h : ∀ operand, Corresponds ρ alike (next operand) (next' (operand.rename ρ))) :
    Corresponds ρ alike (.member index candidates next)
      (.member index (candidates.map (.rename ρ)) next')
  | evaluate (index : Fin n) {next next' : Except EvalError Resolution → Script n}
    (hok : ∀ resolution,
      Corresponds ρ alike (next (.ok resolution)) (next' (.ok (resolution.rename ρ))))
    (herror : ∀ error error', alike error error' →
      Corresponds ρ alike (next (.error error)) (next' (.error error'))) :
    Corresponds ρ alike (.evaluate index next) (.evaluate index next')

theorem Corresponds.refl (script : Script n) : script.Corresponds id Eq script := by
  induction script with
  | answer operand =>
    have h : Corresponds id Eq (.answer operand : Script n) _ := .answer operand
    simpa using h
  | fail error => exact .fail rfl
  | warn warning next ih => exact .warn warning ih
  | operand index next ih => exact .operand index fun operand => by simpa using ih operand
  | member index candidates next ih =>
    have h : Corresponds id Eq (.member index candidates next) _ :=
      .member index candidates fun operand => by simpa using ih operand
    simpa using h
  | evaluate index next ih =>
    refine .evaluate index (fun resolution => by simpa using ih (.ok resolution)) ?_
    rintro error _ rfl
    exact ih (.error error)

end Script

namespace CustomMethod

/-- The method does what its scripts say. -/
def Follows (method : CustomMethod) (scripts : Scripts) : Prop :=
  ∀ call receiver, method.evaluate call receiver =
    (scripts call.name receiver call.args.length).run call.args.get

/-- The method does nothing but have its arguments evaluated. -/
def EvaluatesArguments (method : CustomMethod) : Prop := ∃ scripts, method.Follows scripts

theorem constant_evaluatesArguments (result nullDefault : Value) :
    (constant result nullDefault).EvaluatesArguments :=
  ⟨fun _ _ _ => .answer (.value result), fun _ _ => rfl⟩

/-- The script that answers the list of some values and of the arguments at some places. -/
def gather {n : Nat} (values : List Value) : List (Fin n) → Script n
  | [] => .answer (.value (.list values))
  | index :: rest => .operand index fun
    | .value value => gather (values ++ [value]) rest
    | .unresolved => .answer .unresolved

theorem run_gather {n : Nat} (argument : Fin n → Argument) (values : List Value)
    (indices : List (Fin n)) :
    (gather values indices).run argument = (do
      match ← Argument.values (indices.map argument) with
      | some more => return .value (.list (values ++ more))
      | none => return .unresolved) := by
  induction indices generalizing values with
  | nil => simp [gather, Script.run, Argument.values]
  | cons index rest ih =>
    rw [gather, Script.run, List.map_cons, Argument.values, bind_assoc]
    refine congrArg _ (funext fun operand => ?_)
    cases operand with
    | unresolved => rfl
    | value value =>
      simp only [ih, bind_assoc]
      refine congrArg _ (funext fun more => ?_)
      cases more <;> simp

theorem tuple_evaluatesArguments (nullDefault : Value) :
    (tuple nullDefault).EvaluatesArguments := by
  refine ⟨fun _ receiver n => gather [receiver] (List.finRange n), fun call receiver => ?_⟩
  rw [run_gather, List.map_get_finRange]
  rfl

end CustomMethod

/-! ### Registries -/

/-- A method that is built in, or does nothing but have its arguments evaluated. -/
def Method.EvaluatesArguments : Method → Prop
  | custom method => method.EvaluatesArguments
  | _ => True

namespace Registry

variable {registry : Registry} {p : Method → Prop}

/-- All methods and functions of the registry are as told. -/
structure Every (p : Method → Prop) (registry : Registry) : Prop where
  functions : ∀ name method, registry.function? name = some method → p method
  methods : ∀ type name method, registry.ownMethod? type name = some method → p method

theorem Every.imp {q : Method → Prop} (h : registry.Every p)
    (himp : ∀ method, p method → q method) :
    registry.Every q :=
  ⟨fun name method hmethod => himp method (h.functions name method hmethod),
    fun type name method hmethod => himp method (h.methods type name method hmethod)⟩

theorem every_of_forall_mem (hfunctions : ∀ entry ∈ registry.functions, p entry.2)
    (hmethods : ∀ type ∈ registry.methods, ∀ entry ∈ type.2, p entry.2) : registry.Every p where
  functions _ _ h := hfunctions _ (Bindings.mem_of_get?_eq_some h)
  methods type name method h := by
    obtain ⟨known, hknown, h⟩ := Option.bind_eq_some_iff.mp h
    exact hmethods _ (Bindings.mem_of_get?_eq_some hknown) _ (Bindings.mem_of_get?_eq_some h)

theorem every_empty : empty.Every p := every_of_forall_mem (by simp [empty]) (by simp [empty])

theorem Every.register (h : registry.Every p) (receiverType : Option String) (name : String)
    {method : Method} (hmethod : p method) :
    (registry.register receiverType name method).Every p := by
  cases receiverType with
  | none =>
    refine ⟨fun other found hfound => ?_, h.methods⟩
    rcases Bindings.eq_or_get?_of_insert hfound with rfl | hfound
    · exact hmethod
    · exact h.functions other found hfound
  | some type =>
    refine ⟨h.functions, fun kind other found hfound => ?_⟩
    obtain ⟨known, hknown, hfound⟩ := Option.bind_eq_some_iff.mp hfound
    by_cases htype : type = kind
    · subst htype
      obtain rfl := Option.some.inj ((Bindings.get?_insert_self ..).symm.trans hknown)
      rcases Bindings.eq_or_get?_of_insert hfound with rfl | hfound
      · exact hmethod
      · cases hmethods : registry.methods.get? type with
        | none =>
          rw [hmethods] at hfound
          cases hfound
        | some earlier =>
          rw [hmethods] at hfound
          exact h.methods type other found (Option.bind_eq_some_iff.mpr ⟨earlier, hmethods, hfound⟩)
    · have hearlier := (Bindings.get?_insert_of_ne _ _ htype).symm.trans hknown
      exact h.methods kind other found (Option.bind_eq_some_iff.mpr ⟨known, hearlier, hfound⟩)

theorem every_builtin (h : ∀ entry ∈ builtinEntries, p entry.2.2) : builtin.Every p := by
  refine List.foldlRecOn (motive := Every p) builtinEntries _ every_empty
    fun registry hregistry entry hentry => ?_
  obtain ⟨type, name, method⟩ := entry
  exact hregistry.register type name (h _ hentry)

theorem Every.methodFor? {env : Environment} (h : env.registry.Every p) {type? : Option String}
    {name : String} {method : Method} (hmethod : env.methodFor? type? name = some method) :
    p method := by
  cases type? with
  | none =>
    obtain ⟨type, _, htype⟩ := List.exists_of_findSome?_eq_some hmethod
    exact h.methods type name method htype
  | some type =>
    obtain ⟨ancestor, _, hancestor⟩ := List.exists_of_findSome?_eq_some hmethod
    exact h.methods ancestor name method hancestor

/-- The methods that a program has added do nothing but have their arguments evaluated. -/
class EvaluatesArguments (registry : Registry) : Prop where
  every : registry.Every Method.EvaluatesArguments

instance : empty.EvaluatesArguments := ⟨every_empty⟩

instance : builtin.EvaluatesArguments :=
  ⟨every_builtin (by simp [builtinEntries, Method.EvaluatesArguments, or_imp, forall_and])⟩

theorem EvaluatesArguments.register [registry.EvaluatesArguments] (receiverType : Option String)
    (name : String) {method : Method} (h : method.EvaluatesArguments) :
    (registry.register receiverType name method).EvaluatesArguments :=
  ⟨every.register receiverType name h⟩

end Registry

end ObjectQuery
