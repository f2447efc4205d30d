import ObjectQuery.Proofs.Method.Script

/-!
Methods agree with themselves on renamed receivers if their arguments do.
-/

namespace ObjectQuery

variable {A : Agreement} {context context' : Context}

namespace Agreement

/-- An argument that pushes one operand, by a step that agrees with itself. -/
structure Passes (A : Agreement) (context context' : Context) (argument : Argument) : Prop where
  names : ∀ name ∈ argument.expr.variableName?, A.names name
  visit : ∃ operand : Eval Operand, (argument.visit = do Eval.push (← operand)) ∧
    A.Mirrors context context' (Operand.rename A.rename) operand operand

namespace Passes

variable {argument : Argument}

theorem operand (h : A.Passes context context' argument) :
    A.Mirrors context context' (Operand.rename A.rename) argument.operand argument.operand := by
  obtain ⟨operand, hvisit, hoperand⟩ := h.visit
  rw [Argument.operand_of_visit hvisit]
  exact hoperand

theorem member (h : A.Passes context context' argument) (hc : A.Contexts context context')
    (candidates : List Value) :
    A.Mirrors context context' (Operand.rename A.rename) (argument.member candidates)
      (argument.member (candidates.map (.rename A.rename))) := by
  rw [Argument.member, Argument.member]
  cases hvariable : argument.expr.variableName? with
  | none => exact h.operand
  | some name =>
    have hname : A.names name := h.names name hvariable
    refine Mirrors.readContext ?_
    rw [hc.binding name hname]
    cases hbinding : context.binding? name with
    | none => exact Mirrors.stopOn (some candidates) hname hbinding
    | some value => exact h.operand

theorem evaluate (h : A.Passes context context' argument) :
    A.Mirrors context context' (Except.map (Resolution.rename A.rename)) argument.evaluate
      argument.evaluate := by
  obtain ⟨operand, hvisit, hoperand⟩ := h.visit
  intro supply supply'
  obtain ⟨result, trace, made, hfirst, hsecond, -⟩ := hoperand supply supply'
  refine ⟨.ok (Resolution.ofResult result), trace, made,
    Argument.evaluate_settles hvisit hfirst, fun hs => ?_, by simp [Stops]⟩
  rw [image, ← Resolution.ofResult_image]
  exact Argument.evaluate_settles hvisit (hsecond hs)

theorem values {args : List Argument} (h : ∀ argument ∈ args, A.Passes context context' argument) :
    A.Mirrors context context' (Option.map (List.map (.rename A.rename)))
      (Argument.values args) (Argument.values args) := by
  induction args with
  | nil => exact Mirrors.pure rfl
  | cons argument rest ih =>
    refine (h argument (by simp)).operand.bind fun operand => ?_
    cases operand with
    | unresolved => exact Mirrors.pure rfl
    | value value =>
      refine (ih fun argument hargument => h argument (by simp [hargument])).bind fun values => ?_
      cases values <;> exact Mirrors.pure rfl

end Passes

theorem Mirrors.checkCount (call : Call) (arity : Arity) :
    A.Mirrors context context' id (call.checkCount arity) (call.checkCount arity) := by
  rw [Call.checkCount]
  split
  · exact Mirrors.pure rfl
  · exact Mirrors.fail _

theorem Mirrors.integer (call : Call) (value : Value) :
    A.Mirrors context context' id (call.integer value)
      (call.integer (value.rename A.rename)) := by
  simp only [Call.integer, Value.isIntegral_rename, Value.toInt64?_rename,
    Value.toText_rename, Value.describeType_rename]
  split
  · split
    · exact Mirrors.pure rfl
    · exact Mirrors.fail _
  · exact Mirrors.fail _

end Agreement

open Agreement

/-! ### Collections and maps -/

namespace CollectionMethod

theorem isMember_rename (elements : List Value) (value : Value) :
    isMember (elements.map (.rename A.rename)) (value.rename A.rename) =
      isMember elements value := by
  simp [isMember, Function.comp_def, Value.looseEq_rename A.injective]

theorem elementAt_mirrors (call : Call) (elements : List Value) (position : Value) :
    A.Mirrors context context' (Operand.rename A.rename) (elementAt call elements position)
      (elementAt call (elements.map (.rename A.rename)) (position.rename A.rename)) := by
  refine (Mirrors.integer call position).bind fun index => ?_
  simp only [id_eq, List.getElem?_map]
  by_cases h : 0 ≤ index
  · simp only [h, if_true]
    cases elements[index.toNat]? with
    | none => exact Mirrors.unresolved _
    | some element => exact Mirrors.pure rfl
  · simp only [h, if_false]
    exact Mirrors.unresolved _

theorem evaluate_mirrors (method : CollectionMethod) (call : Call) (receiver : Value)
    (hc : A.Contexts context context')
    (hargs : ∀ argument ∈ call.args, A.Passes context context' argument) :
    A.Mirrors context context' (Operand.rename A.rename) (method.evaluate call receiver)
      (method.evaluate call (receiver.rename A.rename)) := by
  simp only [evaluate, Value.elements?_rename, Value.describeType_rename]
  cases receiver.elements? with
  | none => exact Mirrors.fail _
  | some elements =>
    refine (Mirrors.checkCount call _).bind fun _ => ?_
    rcases call with ⟨_, name, args, _⟩
    cases args with
    | nil =>
      cases method with
      | contains | get => exact Mirrors.fail _
      | isEmpty => exact Mirrors.pure (by simp)
      | size | length => exact Mirrors.pure (by simp [Operand.rename, Value.rename])
    | cons argument rest =>
      have hargument := hargs argument (by simp)
      cases method with
      | contains =>
        refine (hargument.member hc elements).bind fun operand => ?_
        cases operand with
        | unresolved => exact Mirrors.pure rfl
        | value value => exact Mirrors.pure (by simp [isMember_rename])
      | get =>
        refine hargument.operand.bind fun operand => ?_
        cases operand with
        | unresolved => exact Mirrors.pure rfl
        | value position => exact elementAt_mirrors _ elements position
      | isEmpty => exact Mirrors.pure (by simp)
      | size | length => exact Mirrors.pure (by simp [Operand.rename, Value.rename])

end CollectionMethod

namespace MapMethod

/-- The entries of a map with the instances of their keys and values renamed. -/
def renameEntries (ρ : InstanceId → InstanceId) (entries : List (Value × Value)) :
    List (Value × Value) :=
  entries.map fun entry => (entry.1.rename ρ, entry.2.rename ρ)

theorem lookup?_rename (entries : List (Value × Value)) (key : Value) :
    lookup? (renameEntries A.rename entries) (key.rename A.rename) =
      (lookup? entries key).map (.rename A.rename) := by
  simp only [lookup?, renameEntries, List.find?_map, Option.map_map, Function.comp_def,
    Value.looseEq_rename A.injective]

theorem containsValueOf_rename (entries : List (Value × Value)) (value : Value) :
    containsValueOf (renameEntries A.rename entries) (value.rename A.rename) =
      containsValueOf entries value := by
  simp [containsValueOf, renameEntries, Function.comp_def, Value.looseEq_rename A.injective]

theorem byKey_mirrors {argument : Argument} (hc : A.Contexts context context')
    (hargument : A.Passes context context' argument) (entries : List (Value × Value))
    {otherwise : Operand} (hotherwise : otherwise.rename A.rename = otherwise)
    {found : Option Value → Eval Operand}
    (hfound : ∀ value, A.Mirrors context context' (Operand.rename A.rename) (found value)
      (found (value.map (.rename A.rename)))) :
    A.Mirrors context context' (Operand.rename A.rename)
      (byKey argument entries otherwise found)
      (byKey argument (renameEntries A.rename entries) otherwise found) := by
  have hkeys : (renameEntries A.rename entries).map (·.1) =
      (entries.map (·.1)).map (.rename A.rename) := by
    simp [renameEntries, Function.comp_def]
  rw [byKey, byKey, hkeys]
  refine (hargument.member hc _).bind fun operand => ?_
  cases operand with
  | unresolved => exact Mirrors.pure hotherwise.symm
  | value key =>
    simp only [Operand.rename, lookup?_rename]
    exact hfound _

theorem equalsStored_mirrors {argument : Argument} (hc : A.Contexts context context')
    (hargument : A.Passes context context' argument) (stored : Option Value) :
    A.Mirrors context context' (Operand.rename A.rename) (equalsStored argument stored)
      (equalsStored argument (stored.map (.rename A.rename))) := by
  cases stored with
  | none => exact Mirrors.pure rfl
  | some stored =>
    refine (hargument.member hc [stored]).bind fun operand => ?_
    cases operand with
    | unresolved => exact Mirrors.pure rfl
    | value value =>
      exact Mirrors.pure (by simp [Value.looseEq_rename A.injective])

theorem apply_mirrors (method : MapMethod) (call : Call) (entries : List (Value × Value))
    (hc : A.Contexts context context')
    (hargs : ∀ argument ∈ call.args, A.Passes context context' argument) :
    A.Mirrors context context' (Operand.rename A.rename) (method.apply call entries)
      (method.apply call (renameEntries A.rename entries)) := by
  refine (Mirrors.checkCount call _).bind fun _ => ?_
  rcases call with ⟨_, name, args, _⟩
  have hplain : A.Mirrors context context' (Operand.rename A.rename)
      (pure (.ofBool entries.isEmpty)) (pure (.ofBool (renameEntries A.rename entries).isEmpty)) :=
    Mirrors.pure (by simp [renameEntries])
  have hsize : A.Mirrors context context' (Operand.rename A.rename)
      (pure (.value (.int (Int32.ofNat entries.length))))
      (pure (.value (.int (Int32.ofNat (renameEntries A.rename entries).length)))) :=
    Mirrors.pure (by simp [renameEntries, Operand.rename, Value.rename])
  cases args with
  | nil =>
    cases method with
    | isEmpty => exact hplain
    | size => exact hsize
    | _ => exact Mirrors.fail _
  | cons argument rest =>
    have hargument := hargs argument (by simp)
    cases method with
    | isEmpty => exact hplain
    | size => exact hsize
    | containsKey =>
      refine byKey_mirrors hc hargument entries rfl fun found => Mirrors.pure ?_
      simp
    | get =>
      refine byKey_mirrors hc hargument entries rfl fun found => Mirrors.pure ?_
      cases found <;> rfl
    | containsValue =>
      have hvalues : (renameEntries A.rename entries).map (·.2) =
          (entries.map (·.2)).map (.rename A.rename) := by
        simp [renameEntries, Function.comp_def]
      simp only [hvalues]
      refine (hargument.member hc _).bind fun operand => ?_
      cases operand with
      | unresolved => exact Mirrors.pure rfl
      | value value => exact Mirrors.pure (by simp [containsValueOf_rename])
    | containsEntry =>
      cases rest with
      | nil => exact Mirrors.fail _
      | cons value rest =>
        exact byKey_mirrors hc hargument entries rfl
          (equalsStored_mirrors hc (hargs value (by simp)))

theorem evaluate_mirrors (method : MapMethod) (call : Call) (receiver : Value)
    (hc : A.Contexts context context')
    (hargs : ∀ argument ∈ call.args, A.Passes context context' argument) :
    A.Mirrors context context' (Operand.rename A.rename) (method.evaluate call receiver)
      (method.evaluate call (receiver.rename A.rename)) := by
  cases receiver with
  | map entries =>
    simp only [Value.rename, Value.renameEntries_eq_map]
    exact method.apply_mirrors call entries hc hargs
  | _ => exact Mirrors.fail _

end MapMethod

/-! ### Numbers and identities -/

/-- Evaluates the only argument of a call, and goes on with its value. -/
def Call.onlyArgument (call : Call) (next : Value → Eval Operand) : Eval Operand := do
  call.checkCount (.exactly 1)
  match call.args with
  | [] => Eval.fail (call.countError (.exactly 1))
  | argument :: _ =>
    match ← argument.operand with
    | .value value => next value
    | .unresolved => return .unresolved

theorem MathFunction.evaluate_eq (function : MathFunction) (call : Call) :
    function.evaluate call =
      call.onlyArgument fun value => do return .value (← Eval.ofExcept (function.apply value)) :=
  rfl

theorem Method.evaluateIdentityOf_eq (call : Call) :
    evaluateIdentityOf call = call.onlyArgument fun value => return .value (identityValue value) :=
  rfl

theorem Call.onlyArgument_mirrors {next : Value → Eval Operand} (call : Call)
    (hargs : ∀ argument ∈ call.args, A.Passes context context' argument)
    (hnext : ∀ value, A.Mirrors context context' (Operand.rename A.rename) (next value)
      (next (value.rename A.rename))) :
    A.Mirrors context context' (Operand.rename A.rename) (call.onlyArgument next)
      (call.onlyArgument next) := by
  refine (Mirrors.checkCount call _).bind fun _ => ?_
  rcases call with ⟨_, name, args, _⟩
  cases args with
  | nil => exact Mirrors.fail _
  | cons argument rest =>
    refine (hargs argument (by simp)).operand.bind fun operand => ?_
    cases operand with
    | unresolved => exact Mirrors.pure rfl
    | value value => exact hnext value

theorem MathFunction.apply_rename (ρ : InstanceId → InstanceId) (function : MathFunction)
    (value : Value) :
    function.apply (value.rename ρ) = (function.apply value).map (.rename ρ) := by
  cases function <;> cases value <;> rfl

theorem MathFunction.evaluate_mirrors (function : MathFunction) (call : Call)
    (hargs : ∀ argument ∈ call.args, A.Passes context context' argument) :
    A.Mirrors context context' (Operand.rename A.rename) (function.evaluate call)
      (function.evaluate call) := by
  rw [evaluate_eq]
  refine call.onlyArgument_mirrors hargs fun value => ?_
  exact (Mirrors.ofExcept (function.apply_rename A.rename value)).bind fun _ => Mirrors.pure rfl

theorem NumberMethod.evaluate_mirrors (method : NumberMethod) (call : Call) (receiver : Value) :
    A.Mirrors context context' (Operand.rename A.rename) (method.evaluate call receiver)
      (method.evaluate call (receiver.rename A.rename)) := by
  refine (Mirrors.checkCount call _).bind fun _ => ?_
  rw [Value.toDouble?_rename]
  cases receiver.toDouble? with
  | none =>
    simp only [notNumeric, Value.describeType_rename]
    exact Mirrors.fail _
  | some x =>
    refine Mirrors.pure ?_
    cases method <;> simp [convert, integralPart, Operand.rename, Value.rename]

theorem Method.identityValue_rename (ρ : InstanceId → InstanceId) (value : Value) :
    identityValue (value.rename ρ) = (identityValue value).rename ρ := by
  cases value with
  | object id typeName fields identity => cases identity <;> rfl
  | _ => rfl

theorem Method.evaluateIdentity_mirrors (call : Call) (receiver : Value) :
    A.Mirrors context context' (Operand.rename A.rename) (evaluateIdentity call receiver)
      (evaluateIdentity call (receiver.rename A.rename)) := by
  refine (Mirrors.checkCount call _).bind fun _ => Mirrors.pure ?_
  rw [identityValue_rename]
  rfl

theorem Method.evaluateIdentityOf_mirrors (call : Call)
    (hargs : ∀ argument ∈ call.args, A.Passes context context' argument) :
    A.Mirrors context context' (Operand.rename A.rename) (evaluateIdentityOf call)
      (evaluateIdentityOf call) := by
  rw [evaluateIdentityOf_eq]
  refine call.onlyArgument_mirrors hargs fun value => Mirrors.pure ?_
  rw [identityValue_rename]
  rfl

/-! ### Texts -/

theorem matchesWhole_mirrors (pattern text : String) :
    A.Mirrors context context' id (matchesWhole pattern text) (matchesWhole pattern text) := by
  rw [matchesWhole]
  split
  · exact Mirrors.pure rfl
  · exact Mirrors.fail _

namespace TextMethod

theorem text?_rename (ρ : InstanceId → InstanceId) (value : Value) :
    text? (value.rename ρ) = text? value := by
  cases value <;> rfl

theorem text_mirrors (method : TextMethod) (value : Value) :
    A.Mirrors context context' id (method.text value) (method.text (value.rename A.rename)) := by
  simp only [text, text?_rename, Value.describeType_rename]
  split
  · exact Mirrors.pure rfl
  · exact Mirrors.fail _

theorem trimmed_mirrors (method : TextMethod) (args : List Value) :
    A.Mirrors context context' id (method.trimmed args)
      (method.trimmed (args.map (.rename A.rename))) := by
  cases args with
  | nil => exact Mirrors.pure rfl
  | cons value rest =>
    refine (method.text_mirrors value).bind fun s => ?_
    simp only [id_eq]
    split
    · exact Mirrors.pure rfl
    · exact Mirrors.fail _

theorem slice_mirrors (method : TextMethod) (cs : List Char) (start stop : Int) :
    A.Mirrors context context' (Operand.rename A.rename) (method.slice cs start stop)
      (method.slice cs start stop) := by
  rw [slice]
  split
  · exact Mirrors.unresolved _
  · exact Mirrors.unresolved _
  · split
    · exact Mirrors.pure rfl
    · exact Mirrors.unresolved _

theorem apply_mirrors (method : TextMethod) (call : Call) (s : String) (args : List Value) :
    A.Mirrors context context' (Operand.rename A.rename) (method.apply call s args)
      (method.apply call s (args.map (.rename A.rename))) := by
  cases method with
  | trim | trimLeft | trimRight =>
    refine (trimmed_mirrors _ args).bind fun c => ?_
    exact Mirrors.pure rfl
  | toUpperCase | toLowerCase | length => exact Mirrors.pure rfl
  | substring =>
    cases args with
    | nil => exact Mirrors.fail _
    | cons start rest =>
      cases rest with
      | nil => exact (Mirrors.integer call start).bind fun start => slice_mirrors _ _ _ _
      | cons stop rest =>
        refine (Mirrors.integer call start).bind fun start => ?_
        exact (Mirrors.integer call stop).bind fun stop => slice_mirrors _ _ _ _
  | indexOf =>
    cases args with
    | nil => exact Mirrors.fail _
    | cons needle rest =>
      refine (text_mirrors _ needle).bind fun needle => ?_
      cases rest with
      | nil =>
        simp only [pure_bind, id_eq]
        cases indexFrom? s.toList needle.toList (max 0 0) <;> exact Mirrors.pure rfl
      | cons start rest =>
        refine (Mirrors.integer call start).bind fun start => ?_
        simp only [id_eq]
        cases indexFrom? s.toList needle.toList (max start 0) <;> exact Mirrors.pure rfl
  | startsWith | endsWith | equals | equalsIgnoreCase =>
    cases args with
    | nil => exact Mirrors.fail _
    | cons other rest => exact Mirrors.pure (by simp [text?_rename, Operand.rename, Value.rename])
  | «matches» =>
    cases args with
    | nil => exact Mirrors.fail _
    | cons pattern rest =>
      have hpattern : A.Mirrors context context' (Operand.rename A.rename)
          (do return .ofBool (← matchesWhole (← text .matches pattern) s))
          (do return .ofBool (← matchesWhole (← text .matches (pattern.rename A.rename)) s)) :=
        (text_mirrors _ pattern).bind fun pattern =>
          (matchesWhole_mirrors pattern s).bind fun _ => Mirrors.pure rfl
      cases pattern with
      | null => exact Mirrors.pure rfl
      | _ => exact hpattern
  | charAt =>
    cases args with
    | nil => exact Mirrors.fail _
    | cons index rest =>
      refine (Mirrors.integer call index).bind fun index => ?_
      simp only [id_eq]
      split
      · exact Mirrors.pure rfl
      · exact Mirrors.unresolved _
  | concat =>
    cases args with
    | nil => exact Mirrors.fail _
    | cons suffix rest =>
      refine (text_mirrors _ suffix).bind fun suffix => ?_
      exact Mirrors.pure rfl

theorem evaluate_mirrors (method : TextMethod) (call : Call) (receiver : Value)
    (hargs : ∀ argument ∈ call.args, A.Passes context context' argument) :
    A.Mirrors context context' (Operand.rename A.rename) (method.evaluate call receiver)
      (method.evaluate call (receiver.rename A.rename)) := by
  refine (Mirrors.checkCount call _).bind fun _ => ?_
  simp only [Value.string?_rename, Value.describeType_rename]
  cases receiver.string? with
  | none => exact Mirrors.fail _
  | some s =>
    refine (Passes.values hargs).bind fun values => ?_
    cases values with
    | none => exact Mirrors.pure rfl
    | some values => exact method.apply_mirrors call s values

end TextMethod

/-! ### Methods of a program -/

theorem Script.run_mirrors {n : Nat} {script script' : Script n} {argument : Fin n → Argument}
    (h : script.Corresponds A.rename Eq script') (hc : A.Contexts context context')
    (hargs : ∀ index, A.Passes context context' (argument index)) :
    A.Mirrors context context' (Operand.rename A.rename) (script.run argument)
      (script'.run argument) := by
  induction h with
  | answer operand => exact Mirrors.pure rfl
  | fail h =>
    subst h
    exact Mirrors.fail _
  | warn warning _ ih => exact (Mirrors.warn warning).bind fun _ => ih
  | operand index _ ih => exact (hargs index).operand.bind ih
  | member index candidates _ ih => exact ((hargs index).member hc candidates).bind ih
  | evaluate index _ _ ihok iherror =>
    refine (hargs index).evaluate.bind fun outcome => ?_
    cases outcome with
    | ok resolution => exact ihok resolution
    | error error => exact iherror error error rfl

namespace Method

/-- A method does not depend on the names of instances. -/
def Respects (ρ : InstanceId → InstanceId) : Method → Prop
  | custom method => method.nullDefault.rename ρ = method.nullDefault ∧
      ∃ scripts, method.Follows scripts ∧ ∀ name receiver n,
        (scripts name receiver n).Corresponds ρ Eq (scripts name (receiver.rename ρ) n)
  | _ => True

theorem EvaluatesArguments.respects_id {method : Method} (h : method.EvaluatesArguments) :
    method.Respects id := by
  cases method with
  | custom method =>
    obtain ⟨scripts, hscripts⟩ := h
    refine ⟨by simp, scripts, hscripts, fun name receiver n => ?_⟩
    rw [Value.rename_id]
    exact .refl _
  | _ => trivial

theorem Respects.evaluatesArguments {ρ : InstanceId → InstanceId} {method : Method}
    (h : method.Respects ρ) : method.EvaluatesArguments := by
  cases method with
  | custom method =>
    obtain ⟨-, scripts, hscripts, -⟩ := h
    exact ⟨scripts, hscripts⟩
  | _ => trivial

theorem nullDefault_rename {ρ : InstanceId → InstanceId} {method : Method}
    (h : method.Respects ρ) : method.nullDefault.rename ρ = method.nullDefault := by
  cases method with
  | custom method => exact h.1
  | text method | collection method | map method => cases method <;> rfl
  | _ => rfl

theorem evaluate_mirrors {method : Method} (h : method.Respects A.rename) (call : Call)
    (receiver : Value) (hc : A.Contexts context context')
    (hargs : ∀ argument ∈ call.args, A.Passes context context' argument) :
    A.Mirrors context context' (Operand.rename A.rename) (method.evaluate call receiver)
      (method.evaluate call (receiver.rename A.rename)) := by
  cases method with
  | text method => exact method.evaluate_mirrors call receiver hargs
  | collection method => exact method.evaluate_mirrors call receiver hc hargs
  | map method => exact method.evaluate_mirrors call receiver hc hargs
  | math function => exact function.evaluate_mirrors call hargs
  | number method => exact method.evaluate_mirrors call receiver
  | identity => exact evaluateIdentity_mirrors call receiver
  | identityOf => exact evaluateIdentityOf_mirrors call hargs
  | custom method =>
    obtain ⟨-, scripts, hscripts, hcorresponds⟩ := h
    simp only [evaluate, hscripts call]
    exact Script.run_mirrors (hcorresponds _ _ _) hc fun index =>
      hargs _ (List.get_mem call.args index)

end Method

end ObjectQuery
