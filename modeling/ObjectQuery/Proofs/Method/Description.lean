import ObjectQuery.Proofs.Method.Safety

/-!
Steps that keep objects described: what they find and what they leave agrees on the type and the
identity of the object of each name. A step may make objects, which are then known as well. Main
statement: a method keeps objects described if the evaluation of its arguments does.
-/

namespace ObjectQuery

variable {kinds later latest : Kinds}

/-! ### What a machine holds -/

/-- All objects in the value of an operand are what their names stand for. -/
def Operand.Described (kinds : Kinds) (operand : Operand) : Prop :=
  operand.valueOrNull.Described kinds

theorem Operand.Described.mono {operand : Operand} (h : operand.Described kinds)
    (hlater : later.Extends kinds) : operand.Described later := Value.Described.mono h hlater

theorem Operand.described_of_isFlat {operand : Operand} (kinds : Kinds) (h : operand.isFlat) :
    operand.Described kinds := Value.described_of_isFlat kinds h

/-- All objects in the values that a halt offers are what their names stand for. -/
def Halt.Described (kinds : Kinds) : Halt → Prop
  | .unbound missing =>
    ∀ candidates ∈ missing.candidates, ∀ value ∈ candidates, value.Described kinds
  | .fatal _ => True

namespace Context

/-- All objects in the values of names are what their own names stand for. -/
structure Described (kinds : Kinds) (context : Context) : Prop where
  parameters : ∀ name, (context.parameter name).Described kinds
  state : ∀ name, ∀ value ∈ context.state.get? name, value.Described kinds
  assignment : ∀ name, ∀ value ∈ context.assignment.get? name, value.Described kinds
  resultSet : ∀ members ∈ context.resultSet, ∀ member ∈ members, member.Described kinds

variable {context : Context} {value : Value}

theorem Described.mono (h : context.Described kinds) (hlater : later.Extends kinds) :
    context.Described later where
  parameters name := (h.parameters name).mono hlater
  state name value hvalue := (h.state name value hvalue).mono hlater
  assignment name value hvalue := (h.assignment name value hvalue).mono hlater
  resultSet members hmembers member hmember :=
    (h.resultSet members hmembers member hmember).mono hlater

theorem Described.setCandidate (h : context.Described kinds) (hvalue : value.Described kinds) :
    (context.setCandidate value).Described kinds where
  parameters := h.parameters
  state name other hother := by
    rcases Bindings.eq_or_get?_of_insert hother with rfl | hother
    · exact hvalue
    · exact h.state name other hother
  assignment := h.assignment
  resultSet := h.resultSet

theorem Described.clearCandidate (h : context.Described kinds) :
    context.clearCandidate.Described kinds where
  parameters := h.parameters
  state name value hvalue := by
    rw [Option.mem_def, Context.clearCandidate] at hvalue
    by_cases hname : context.candidateName = name
    · rw [hname, Bindings.get?_erase_self] at hvalue
      cases hvalue
    · rw [Bindings.get?_erase_of_ne _ hname] at hvalue
      exact h.state name value hvalue
  assignment := h.assignment
  resultSet := h.resultSet

theorem Described.restoreCandidate (h : context.Described kinds) {candidate? : Option Value}
    (hcandidate : ∀ value ∈ candidate?, value.Described kinds) :
    (context.restoreCandidate candidate?).Described kinds := by
  cases candidate? with
  | none => exact h.clearCandidate
  | some value => exact h.setCandidate (hcandidate value rfl)

theorem Described.binding (h : context.Described kinds) {name : String}
    (hvalue : value ∈ context.binding? name) : value.Described kinds := by
  rcases Option.or_eq_some_iff.mp hvalue with hstate | ⟨-, hassignment⟩
  · exact h.state name value hstate
  · exact h.assignment name value hassignment

end Context

/-- All objects on the stack and in the context are what their names stand for, and the names of
objects to be made stand for none. -/
structure Machine.Described (kinds : Kinds) (machine : Machine) : Prop where
  context : machine.context.Described kinds
  stack : ∀ operand ∈ machine.stack, operand.Described kinds
  supply : ∀ made, kinds (machine.supply.advance made) = none

namespace Eval

variable {α β : Type} {p : Kinds → α → Prop} {r : Kinds → β → Prop} {step : Eval α}
  {next : α → Eval β}

/-- From objects that are described a step comes to objects that are, among them those that it has
made, and its result is as told. -/
def Preserves (kinds : Kinds) (step : Eval α) (p : Kinds → α → Prop) : Prop :=
  ∀ later : Kinds, later.Extends kinds → ∀ machine : Machine, machine.Described later →
    ∃ latest : Kinds, latest.Extends later ∧
      match step machine with
      | .ok a after => after.Described latest ∧ p latest a
      | .error halt after => after.Described latest ∧ halt.Described latest

namespace Preserves

theorem mono (h : Preserves kinds step p) (hlater : later.Extends kinds) : Preserves later step p :=
  fun latest hlatest => h latest (hlatest.trans hlater)

theorem pure {a : α} (h : ∀ later : Kinds, later.Extends kinds → p later a) :
    Preserves kinds (pure a) p :=
  fun later hlater _ hmachine => ⟨later, .refl later, hmachine, h later hlater⟩

theorem answer {operand : Operand} (h : operand.Described kinds) :
    Preserves kinds (Pure.pure operand) Operand.Described := pure fun _ => h.mono

theorem bind (h : Preserves kinds step p)
    (hnext : ∀ later : Kinds, later.Extends kinds → ∀ a, p later a → Preserves later (next a) r) :
    Preserves kinds (step >>= next) r := by
  intro later hlater machine hmachine
  obtain ⟨middle, hmiddle, hstep⟩ := h later hlater machine hmachine
  simp only [Bind.bind, EStateM.bind]
  cases hrun : step machine with
  | ok a after =>
    simp only [hrun] at hstep
    obtain ⟨hafter, ha⟩ := hstep
    obtain ⟨latest, hlatest, hrest⟩ :=
      hnext middle (hmiddle.trans hlater) a ha middle (.refl middle) after hafter
    exact ⟨latest, hlatest.trans hmiddle, hrest⟩
  | error halt after =>
    rw [hrun] at hstep
    exact ⟨middle, hmiddle, hstep⟩

/-- A step that changes nothing keeps what is described. -/
theorem of_quiet {q : α → Prop} (h : Quiet step q)
    (hp : ∀ later : Kinds, later.Extends kinds → ∀ a, q a → p later a) :
    Preserves kinds step p := by
  intro later hlater machine hmachine
  have hstep := h machine
  refine ⟨later, .refl later, ?_⟩
  cases hrun : step machine with
  | ok a after =>
    simp only [hrun] at hstep
    obtain ⟨⟨trace, rfl⟩, ha⟩ := hstep
    exact ⟨⟨hmachine.context, hmachine.stack, hmachine.supply⟩, hp later hlater a ha⟩
  | error halt after =>
    rw [hrun] at hstep
    obtain ⟨⟨trace, rfl⟩, error, -, rfl⟩ := hstep
    exact ⟨⟨hmachine.context, hmachine.stack, hmachine.supply⟩, trivial⟩

theorem of_flat {step : Eval Operand} (h : Quiet step fun operand => operand.isFlat) :
    Preserves kinds step Operand.Described :=
  of_quiet h fun later _ _ hflat => Operand.described_of_isFlat later hflat

theorem flat {operand : Operand} (h : operand.isFlat) :
    Preserves kinds (Pure.pure operand) Operand.Described := of_flat (.pure h)

theorem fail {error : EvalError} : Preserves kinds (Eval.fail error : Eval α) p :=
  fun later _ _ hmachine => ⟨later, .refl later, hmachine, trivial⟩

theorem ofExcept {result : Except EvalError α}
    (h : ∀ a, result = .ok a → ∀ later : Kinds, later.Extends kinds → p later a) :
    Preserves kinds (Eval.ofExcept result) p := by
  cases result with
  | ok a => exact pure (h a rfl)
  | error error => exact fail

theorem unresolved (warning : Warning) :
    Preserves kinds (Eval.unresolved warning) Operand.Described :=
  of_flat (.unresolved warning rfl)

theorem stopOn (name : String) {candidates : Option (List Value)}
    (h : ∀ values ∈ candidates, ∀ value ∈ values, value.Described kinds) :
    Preserves kinds (Eval.stopOn name candidates : Eval α) p :=
  fun later hlater _ hmachine => ⟨later, .refl later, hmachine,
    fun values hvalues value hvalue => (h values hvalues value hvalue).mono hlater⟩

theorem warn (warning : Warning) : Preserves kinds (Eval.warn warning) fun _ _ => True :=
  fun later _ _ hmachine =>
    ⟨later, .refl later, ⟨hmachine.context, hmachine.stack, hmachine.supply⟩, trivial⟩

theorem context : Preserves kinds Eval.context Context.Described :=
  fun later _ _ hmachine => ⟨later, .refl later, hmachine, hmachine.context⟩

theorem modifyContext {f : Context → Context}
    (h : ∀ later : Kinds, later.Extends kinds → ∀ context : Context, context.Described later →
      (f context).Described later) :
    Preserves kinds (Eval.modifyContext f) fun _ _ => True :=
  fun later hlater _ hmachine => ⟨later, .refl later,
    ⟨h later hlater _ hmachine.context, hmachine.stack, hmachine.supply⟩, trivial⟩

theorem push {operand : Operand} (h : operand.Described kinds) :
    Preserves kinds (Eval.push operand) fun _ _ => True := by
  intro later hlater machine hmachine
  refine ⟨later, .refl later, ⟨hmachine.context, ?_, hmachine.supply⟩, trivial⟩
  exact List.forall_mem_cons.mpr ⟨h.mono hlater, hmachine.stack⟩

theorem pop : Preserves kinds Eval.pop Operand.Described := by
  rintro later - ⟨context, stack, trace, supply⟩ ⟨hcontext, hstack, hsupply⟩
  refine ⟨later, .refl later, ?_⟩
  cases stack with
  | nil => exact ⟨⟨hcontext, hstack, hsupply⟩, trivial⟩
  | cons operand rest =>
    obtain ⟨hoperand, hrest⟩ := List.forall_mem_cons.mp hstack
    exact ⟨⟨hcontext, hrest, hsupply⟩, hoperand⟩

theorem popMany (n : Nat) :
    Preserves kinds (Eval.popMany n) fun later operands => ∀ operand ∈ operands,
      operand.Described later := by
  intro later _ machine hmachine
  refine ⟨later, .refl later, ?_⟩
  rw [popMany_apply]
  by_cases hdepth : n ≤ machine.depth
  · rw [if_pos hdepth]
    refine ⟨⟨hmachine.context, fun operand hoperand => ?_, hmachine.supply⟩,
      fun operand hoperand => ?_⟩
    · exact hmachine.stack operand (List.mem_of_mem_drop hoperand)
    · exact hmachine.stack operand (List.mem_of_mem_take (List.mem_reverse.mp hoperand))
  · rw [if_neg hdepth]
    exact ⟨hmachine, trivial⟩

theorem fresh (kind : String × Option Value) :
    Preserves kinds Eval.fresh fun later id => later id = some kind := by
  rintro later - ⟨context, stack, trace, supply⟩ ⟨hcontext, hstack, hsupply⟩
  have hextends := Kinds.extends_update (hsupply 0) kind
  refine ⟨_, hextends, ⟨hcontext.mono hextends, fun operand hoperand =>
    (hstack operand hoperand).mono hextends, fun made => ?_⟩, Function.update_self ..⟩
  have hnext : supply.next.advance made = supply.advance (made + 1) := by
    simp only [InstanceId.next, InstanceId.advance, Nat.add_assoc, Nat.add_comm 1]
  have hne : supply.advance (made + 1) ≠ supply := by
    intro h
    have := congrArg InstanceId.serial h
    simp [InstanceId.advance] at this
  change Function.update later supply (some kind) (supply.next.advance made) = none
  rw [hnext, Function.update_of_ne hne]
  exact hsupply (made + 1)

/-- The restored candidate is as it was before, when fewer objects were known. -/
theorem restoring (h : Preserves kinds step p) : Preserves kinds (Eval.restoring step) p := by
  intro later hlater machine hmachine
  obtain ⟨latest, hlatest, hstep⟩ := h later hlater machine hmachine
  have hleave : ∀ after : Machine, after.Described latest →
      ((after.truncate machine.depth).mapContext
        (·.restoreCandidate machine.context.candidate?)).Described latest := by
    intro after hafter
    refine ⟨hafter.context.restoreCandidate fun value hvalue => ?_, fun operand hoperand => ?_,
      hafter.supply⟩
    · exact (hmachine.context.state _ value hvalue).mono hlatest
    · exact hafter.stack operand (List.mem_of_mem_drop hoperand)
  refine ⟨latest, hlatest, ?_⟩
  simp only [Eval.restoring]
  cases hrun : step machine with
  | ok a after =>
    simp only [hrun] at hstep
    exact ⟨hleave after hstep.1, hstep.2⟩
  | error halt after =>
    rw [hrun] at hstep
    exact ⟨hleave after hstep.1, hstep.2⟩

end Preserves

end Eval

open Eval

/-! ### Arguments -/

namespace Argument

/-- The evaluation of an argument keeps objects described. -/
def Preserves (kinds : Kinds) (argument : Argument) : Prop :=
  Eval.Preserves kinds argument.visit fun _ _ => True

variable {argument : Argument}

theorem operand_preserves (h : argument.Preserves kinds) :
    Eval.Preserves kinds argument.operand Operand.Described :=
  Eval.Preserves.bind h fun _ _ _ _ => .pop

theorem member_preserves (h : argument.Preserves kinds) {candidates : List Value}
    (hcandidates : ∀ value ∈ candidates, value.Described kinds) :
    Eval.Preserves kinds (argument.member candidates) Operand.Described := by
  rw [member]
  cases argument.expr.variableName? with
  | none => exact operand_preserves h
  | some name =>
    refine Eval.Preserves.context.bind fun later hlater context _ => ?_
    cases context.binding? name with
    | none =>
      refine .stopOn name fun values hvalues value hvalue => ?_
      obtain rfl := Option.some.inj hvalues
      exact (hcandidates value hvalue).mono hlater
    | some value => exact (operand_preserves h).mono hlater

theorem values_preserves {args : List Argument} (h : ∀ argument ∈ args, argument.Preserves kinds) :
    Eval.Preserves kinds (Argument.values args) fun _ values =>
      ∀ vs ∈ values, vs.length = args.length := by
  induction args generalizing kinds with
  | nil => exact .pure fun _ _ => by simp
  | cons argument rest ih =>
    rw [values]
    refine (operand_preserves (h argument (by simp))).bind fun later hlater operand _ => ?_
    cases operand with
    | unresolved => exact .pure fun _ _ => by simp
    | value value =>
      have hrest : ∀ argument ∈ rest, argument.Preserves later := fun argument hargument =>
        (h argument (by simp [hargument])).mono hlater
      refine (ih hrest).bind fun _ _ values hvalues => .pure fun _ _ => ?_
      cases values with
      | none => simp
      | some vs => simpa using hvalues vs rfl

end Argument

theorem Call.checkCount_preserves (call : Call) (arity : Arity) :
    Preserves kinds (call.checkCount arity) fun _ _ => arity.admits call.args.length :=
  .of_quiet (call.checkCount_quiet arity) fun _ _ _ h => h

/-! ### Collections and maps -/

namespace CollectionMethod

theorem elementAt_preserves (call : Call) {elements : List Value} (position : Value)
    (helements : ∀ element ∈ elements, element.Described kinds) :
    Preserves kinds (elementAt call elements position) Operand.Described := by
  refine .of_quiet (elementAt_quiet call elements position) fun later hlater operand h => ?_
  rcases h with rfl | h
  · exact Operand.described_of_isFlat later rfl
  · exact (helements _ h).mono hlater

theorem apply_preserves (method : CollectionMethod) (call : Call) {elements : List Value}
    (helements : ∀ element ∈ elements, element.Described kinds)
    (hargs : ∀ argument ∈ call.args, argument.Preserves kinds) :
    Preserves kinds (method.apply call elements) Operand.Described := by
  refine (call.checkCount_preserves _).bind fun later hlater _ _ => ?_
  have helements : ∀ element ∈ elements, element.Described later :=
    fun element helement => (helements element helement).mono hlater
  rcases call with ⟨source, name, args, declared⟩
  cases args with
  | nil =>
    cases method with
    | contains | get => exact .fail
    | isEmpty | size | length => exact .flat rfl
  | cons argument rest =>
    have hargument : argument.Preserves later := (hargs argument (by simp)).mono hlater
    cases method with
    | contains =>
      refine (Argument.member_preserves hargument helements).bind fun _ _ operand _ => ?_
      cases operand <;> exact .flat rfl
    | get =>
      refine (Argument.operand_preserves hargument).bind fun latest hlatest operand _ => ?_
      cases operand with
      | value position =>
        exact (elementAt_preserves _ position helements).mono hlatest
      | unresolved => exact .flat rfl
    | isEmpty | size | length => exact .flat rfl

theorem evaluate_preserves (method : CollectionMethod) (call : Call) {receiver : Value}
    (hreceiver : receiver.Described kinds)
    (hargs : ∀ argument ∈ call.args, argument.Preserves kinds) :
    Preserves kinds (method.evaluate call receiver) Operand.Described := by
  rw [evaluate]
  cases helements : receiver.elements? with
  | none => exact .fail
  | some elements => exact method.apply_preserves call (hreceiver.element helements) hargs

end CollectionMethod

namespace MapMethod

variable {entries : List (Value × Value)}

theorem described_lookup? (hentries : (Value.map entries).Described kinds) {key value : Value}
    (h : lookup? entries key = some value) : value.Described kinds := by
  obtain ⟨entry, hentry, rfl⟩ := Option.map_eq_some_iff.mp h
  exact (hentries.entry (List.mem_of_find?_eq_some hentry)).2

theorem byKey_preserves {argument : Argument} (h : argument.Preserves kinds)
    (hentries : (Value.map entries).Described kinds) {otherwise : Operand}
    (hotherwise : otherwise.isFlat) {found : Option Value → Eval Operand}
    (hfound : ∀ later : Kinds, later.Extends kinds → ∀ value : Option Value,
      (∀ stored ∈ value, stored.Described later) →
        Preserves later (found value) Operand.Described) :
    Preserves kinds (byKey argument entries otherwise found) Operand.Described := by
  have hkeys : ∀ key ∈ entries.map (·.1), key.Described kinds := by
    intro key hkey
    obtain ⟨entry, hentry, rfl⟩ := List.mem_map.mp hkey
    exact (hentries.entry hentry).1
  refine (Argument.member_preserves h hkeys).bind fun later hlater operand _ => ?_
  cases operand with
  | value key =>
    exact hfound later hlater _ fun stored hstored =>
      described_lookup? (hentries.mono hlater) hstored
  | unresolved => exact .flat hotherwise

theorem equalsStored_preserves {argument : Argument} (h : argument.Preserves kinds)
    {value : Option Value} (hvalue : ∀ stored ∈ value, stored.Described kinds) :
    Preserves kinds (equalsStored argument value) Operand.Described := by
  cases value with
  | none => exact .flat rfl
  | some stored =>
    have hstored : ∀ value ∈ [stored], value.Described kinds := by simpa using hvalue
    refine (Argument.member_preserves h hstored).bind fun _ _ operand _ => ?_
    cases operand <;> exact .flat rfl

theorem apply_preserves (method : MapMethod) (call : Call)
    (hentries : (Value.map entries).Described kinds)
    (hargs : ∀ argument ∈ call.args, argument.Preserves kinds) :
    Preserves kinds (method.apply call entries) Operand.Described := by
  refine (call.checkCount_preserves _).bind fun later hlater _ _ => ?_
  have hentries := hentries.mono hlater
  rcases call with ⟨source, name, args, declared⟩
  cases args with
  | nil =>
    cases method with
    | isEmpty | size => exact .flat rfl
    | containsKey | containsValue | get | containsEntry => exact .fail
  | cons argument rest =>
    have hargument : argument.Preserves later := (hargs argument (by simp)).mono hlater
    cases method with
    | isEmpty | size => exact .flat rfl
    | containsKey => exact byKey_preserves hargument hentries rfl fun _ _ _ _ => .flat rfl
    | get =>
      refine byKey_preserves hargument hentries rfl fun latest _ value hvalue => .answer ?_
      cases value with
      | none => exact Operand.described_of_isFlat latest rfl
      | some stored => exact hvalue stored rfl
    | containsValue =>
      have hvalues : ∀ value ∈ entries.map (·.2), value.Described later := by
        intro value hvalue
        obtain ⟨entry, hentry, rfl⟩ := List.mem_map.mp hvalue
        exact (hentries.entry hentry).2
      refine (Argument.member_preserves hargument hvalues).bind fun _ _ operand _ => ?_
      cases operand <;> exact .flat rfl
    | containsEntry =>
      cases rest with
      | nil => exact .fail
      | cons value rest =>
        have hvalue : value.Preserves later := (hargs value (by simp)).mono hlater
        exact byKey_preserves hargument hentries rfl fun _ hlatest _ hstored =>
          equalsStored_preserves (hvalue.mono hlatest) hstored

theorem evaluate_preserves (method : MapMethod) (call : Call) {receiver : Value}
    (hreceiver : receiver.Described kinds)
    (hargs : ∀ argument ∈ call.args, argument.Preserves kinds) :
    Preserves kinds (method.evaluate call receiver) Operand.Described := by
  cases receiver with
  | map entries => exact method.apply_preserves call hreceiver hargs
  | _ => exact .fail

end MapMethod

/-! ### Texts, numbers and identities -/

theorem TextMethod.evaluate_preserves (method : TextMethod) (call : Call) (receiver : Value)
    (hargs : ∀ argument ∈ call.args, argument.Preserves kinds) :
    Preserves kinds (method.evaluate call receiver) Operand.Described := by
  refine (call.checkCount_preserves _).bind fun later hlater _ hadmits => ?_
  cases receiver.string? with
  | none => exact .fail
  | some s =>
    have hargs : ∀ argument ∈ call.args, argument.Preserves later := fun argument hargument =>
      (hargs argument hargument).mono hlater
    refine (Argument.values_preserves hargs).bind fun _ _ values hvalues => ?_
    cases values with
    | none => exact .flat rfl
    | some values =>
      rw [← hvalues values rfl] at hadmits
      exact .of_flat (method.apply_quiet call s values hadmits)

theorem Call.onlyArgument_preserves {next : Value → Eval Operand} (call : Call)
    (hargs : ∀ argument ∈ call.args, argument.Preserves kinds)
    (hnext : ∀ later : Kinds, ∀ value : Value, value.Described later →
      Preserves later (next value) Operand.Described) :
    Preserves kinds (call.onlyArgument next) Operand.Described := by
  refine (call.checkCount_preserves _).bind fun later hlater _ _ => ?_
  rcases call with ⟨source, name, args, declared⟩
  cases args with
  | nil => exact .fail
  | cons argument rest =>
    have hargument : argument.Preserves later := (hargs argument (by simp)).mono hlater
    refine (Argument.operand_preserves hargument).bind fun latest _ operand hoperand => ?_
    cases operand with
    | unresolved => exact .flat rfl
    | value value => exact hnext latest value hoperand

theorem MathFunction.evaluate_preserves (function : MathFunction) (call : Call)
    (hargs : ∀ argument ∈ call.args, argument.Preserves kinds) :
    Preserves kinds (function.evaluate call) Operand.Described := by
  rw [evaluate_eq]
  exact call.onlyArgument_preserves hargs fun _ value _ => .of_flat (function.answer_quiet value)

namespace Method

theorem described_identityValue {value : Value} (h : value.Described kinds) :
    (identityValue value).Described kinds := by
  cases value with
  | object id typeName fields identity =>
    cases identity with
    | none => exact Value.described_of_isFlat kinds rfl
    | some identity => exact h.identity
  | _ => exact Value.described_of_isFlat kinds rfl

theorem evaluateIdentity_preserves (call : Call) {receiver : Value}
    (hreceiver : receiver.Described kinds) :
    Eval.Preserves kinds (evaluateIdentity call receiver) Operand.Described :=
  (call.checkCount_preserves _).bind fun _ hlater _ _ =>
    .answer (described_identityValue (hreceiver.mono hlater))

theorem evaluateIdentityOf_preserves (call : Call)
    (hargs : ∀ argument ∈ call.args, argument.Preserves kinds) :
    Eval.Preserves kinds (evaluateIdentityOf call) Operand.Described := by
  rw [evaluateIdentityOf_eq]
  exact call.onlyArgument_preserves hargs fun _ _ hvalue => .answer (described_identityValue hvalue)

/-- A method keeps objects described if the evaluation of what its call holds does. Of the built-in
ones nothing is asked. -/
def Preserves (kinds : Kinds) : Method → Prop
  | custom method =>
    method.nullDefault.Described kinds ∧
    ∀ later : Kinds, later.Extends kinds → ∀ (call : Call) (receiver : Value),
      receiver.Described later →
      (∀ argument ∈ call.receiver.toList ++ call.args, argument.Preserves later) →
        Eval.Preserves later (method.evaluate call receiver) Operand.Described
  | _ => True

theorem Preserves.mono {method : Method} (h : method.Preserves kinds)
    (hlater : later.Extends kinds) : method.Preserves later := by
  cases method with
  | custom method =>
    exact ⟨h.1.mono hlater, fun latest hlatest => h.2 latest (hlatest.trans hlater)⟩
  | _ => trivial

theorem evaluate_preserves {method : Method} (hmethod : method.Preserves kinds) {call : Call}
    {receiver : Value} (hreceiver : receiver.Described kinds)
    (hcall : ∀ argument ∈ call.receiver.toList ++ call.args, argument.Preserves kinds) :
    Eval.Preserves kinds (method.evaluate call receiver) Operand.Described := by
  have hargs : ∀ argument ∈ call.args, argument.Preserves kinds := fun argument hargument =>
    hcall argument (List.mem_append_right _ hargument)
  cases method with
  | text method => exact method.evaluate_preserves call receiver hargs
  | collection method => exact method.evaluate_preserves call hreceiver hargs
  | map method => exact method.evaluate_preserves call hreceiver hargs
  | math function => exact function.evaluate_preserves call hargs
  | number method => exact .of_flat (method.evaluate_quiet call receiver)
  | identity => exact evaluateIdentity_preserves call hreceiver
  | identityOf => exact evaluateIdentityOf_preserves call hargs
  | custom method => exact hmethod.2 kinds (.refl kinds) call receiver hreceiver hcall

theorem described_nullDefault {method : Method} (h : method.Preserves kinds) :
    method.nullDefault.Described kinds := by
  cases method with
  | custom method => exact h.1
  | text method | collection method | map method =>
    exact Value.described_of_isFlat kinds (by cases method <;> rfl)
  | _ => exact Value.described_of_isFlat kinds rfl

end Method

end ObjectQuery
