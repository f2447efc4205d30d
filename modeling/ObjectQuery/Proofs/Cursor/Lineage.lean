import ObjectQuery.Proofs.Cursor.Opening
import ObjectQuery.Proofs.Cursor.StableSort
import ObjectQuery.Proofs.Value.Strict

/-!
Which stages made the objects that a stack of stages gives. Main statement: over values from below a
stage, the stages below it give values from below it. So a stage can tell the objects that it makes
from all that it is given.
-/

namespace ObjectQuery

variable {stage : Nat}

/-! ### Values from below a stage -/

namespace InstanceId

/-- Other names for the objects of a stage and of those above it alone. -/
def RenamesFrom (stage : Nat) (ρ : InstanceId → InstanceId) : Prop :=
  Function.Injective ρ ∧ ∀ id : InstanceId, id.stage < stage → ρ id = id

/-- Other names for all objects of a stage and of those above it. -/
def raise (stage : Nat) (id : InstanceId) : InstanceId :=
  if id.stage < stage then id else id.advance 1

theorem renamesFrom_raise (stage : Nat) : RenamesFrom stage (raise stage) := by
  refine ⟨?_, fun id hid => if_pos hid⟩
  rintro ⟨s, t, n⟩ ⟨s', t', n'⟩ h
  simp only [raise, advance] at h
  split at h <;> split at h <;> grind

theorem stage_lt_of_raise_eq {id : InstanceId} (h : raise stage id = id) : id.stage < stage := by
  by_contra hid
  rw [raise, if_neg hid] at h
  simpa [advance] using congrArg serial h

end InstanceId

open InstanceId

namespace Value

/-- The stages that made the objects of the value all lie below the stage. -/
def FromBelow (stage : Nat) (value : Value) : Prop := value.All (NamedBy fun id => id.stage < stage)

variable {value : Value}

theorem FromBelow.rename_eq (h : value.FromBelow stage) {ρ : InstanceId → InstanceId}
    (hρ : RenamesFrom stage ρ) : value.rename ρ = value := by
  induction h with
  | node hself _ ih =>
    refine rename_eq_self ρ (fun id typeName fields identity heq => hρ.2 id ?_) ih
    rwa [heq] at hself

theorem fromBelow_of_rename_eq (h : value.rename (raise stage) = value) : value.FromBelow stage :=
  (all_namedBy_of_rename_eq h).imp fun node hnode => by
    cases node <;> first | exact stage_lt_of_raise_eq hnode | trivial

theorem fromBelow_null (stage : Nat) : Value.null.FromBelow stage :=
  .node trivial (by simp [children])

theorem fromBelow_rowValue {values : List Value} (h : ∀ value ∈ values, value.FromBelow stage) :
    (Cursor.rowValue values).FromBelow stage := by
  rcases values with _ | ⟨value, _ | ⟨next, rest⟩⟩
  · exact .node trivial h
  · exact h value List.mem_cons_self
  · exact .node trivial h

end Value

/-- What evaluations read holds no object made by the stage or by one above it, and does not depend
on the names of these. -/
def Environment.FromBelow (env : Environment) (stage : Nat) : Prop :=
  ∀ ρ, RenamesFrom stage ρ → env.Respects ρ

theorem Environment.FromBelow.evaluatesArguments {env : Environment} (h : env.FromBelow stage) :
    env.registry.EvaluatesArguments :=
  (h id ⟨Function.injective_id, fun _ _ => rfl⟩).evaluatesArguments

theorem Environment.fromBelow_builtin (catalog : Catalog) {access : FieldAccess}
    (hfetch : ∀ object index value, access.fetch object index = .ok value → value.FromBelow stage) :
    (⟨catalog, .builtin, access⟩ : Environment).FromBelow stage := by
  intro ρ hρ
  obtain ⟨hfunctions, hmethods⟩ := Registry.respects_builtin ρ
  exact ⟨fun object index value h => (hfetch object index value h).rename_eq hρ,
    hfunctions, hmethods⟩

/-- The values that an expression gives itself hold no object made by the stage or by one above it.
-/
def Expr.FromBelow (e : Expr) (stage : Nat) : Prop :=
  e.All fun node => ∀ value, node = literal value → value.FromBelow stage

/-- The values that a context gives to names hold no object made by the stage or by one above it. -/
structure Context.FromBelow (context : Context) (stage : Nat) : Prop where
  parameters : ∀ name, (context.parameter name).FromBelow stage
  state : ∀ name, ∀ value ∈ context.state.get? name, value.FromBelow stage
  assignment : ∀ name, ∀ value ∈ context.assignment.get? name, value.FromBelow stage
  resultSet : ∀ members ∈ context.resultSet, ∀ member ∈ members, member.FromBelow stage

theorem Context.FromBelow.contexts {context : Context} (h : context.FromBelow stage) {A : Agreement}
    (hA : RenamesFrom stage A.rename) : A.Contexts context context :=
  A.contexts_self (fun name => (h.parameters name).rename_eq hA)
    (fun name value hvalue => (h.state name value hvalue).rename_eq hA)
    (fun name value hvalue => (h.assignment name value hvalue).rename_eq hA)
    fun members hmembers member hmember =>
      (h.resultSet members hmembers member hmember).rename_eq hA

theorem Context.FromBelow.setCandidate {context : Context} (h : context.FromBelow stage)
    {candidate : Value} (hcandidate : candidate.FromBelow stage) :
    (context.setCandidate candidate).FromBelow stage where
  parameters := h.parameters
  state name value hvalue := by
    rcases Context.eq_or_mem_of_setCandidate hvalue with rfl | hvalue
    · exact hcandidate
    · exact h.state name value hvalue
  assignment := h.assignment
  resultSet := h.resultSet

theorem Expr.FromBelow.admits {e : Expr} (h : e.FromBelow stage) {A : Agreement}
    (hA : RenamesFrom stage A.rename) (hvariables : ∀ name ∈ Cursor.variableNames e, A.names name)
    (haggregates : A.aggregates) : e.All A.Admits :=
  Agreement.admits_of_rename_eq
    (h.imp fun _ hnode value hvalue => (hnode value hvalue).rename_eq hA) hvariables haggregates

/-- What evaluations for a query read holds no object made by the stage or by one above it. -/
structure Cursor.Scope.FromBelow (scope : Cursor.Scope) (stage : Nat) : Prop where
  environment : scope.environment.FromBelow stage
  parameters : ∀ parameter ∈ scope.parameters, parameter.2.FromBelow stage

theorem Cursor.Scope.FromBelow.context {scope : Cursor.Scope} (h : scope.FromBelow stage) :
    scope.context.FromBelow stage where
  parameters := Context.parameter_of_forall (Value.fromBelow_null stage) h.parameters
  state name value hvalue := by cases hvalue
  assignment name value hvalue := by cases hvalue
  resultSet members hmembers := by cases hmembers

/-! ### Evaluations below a stage -/

/-- If the computation makes its objects below the stage, what it comes to is as told. -/
def YieldsBelow {α : Type} (stage : Nat) (context : Context) (holds : α → Prop)
    (run : EStateM EvalError Machine α) : Prop :=
  ∀ supply : InstanceId, supply.stage < stage → ∃ result trace after,
    Settles run context supply ⟨result, context, trace, after⟩ ∧ after.stage < stage ∧
      ∀ a, result = .ok a → holds a

namespace YieldsBelow

variable {α β : Type} {context : Context} {holds : α → Prop} {run : EStateM EvalError Machine α}

theorem outcomeOf (h : YieldsBelow stage context holds run) {supply : InstanceId}
    (hsupply : supply.stage < stage) {a : α}
    (ha : (ObjectQuery.outcomeOf run context supply).result = .ok a) : holds a := by
  obtain ⟨result, trace, after, hsettles, -, hholds⟩ := h supply hsupply
  rw [hsettles.outcomeOf_eq] at ha
  exact hholds a ha

theorem pure {a : α} (h : holds a) : YieldsBelow stage context holds (pure a) :=
  fun supply hsupply => ⟨_, _, supply, .pure a, hsupply, fun _ hb => Except.ok.inj hb ▸ h⟩

theorem bind {holds' : β → Prop} {next : α → EStateM EvalError Machine β}
    (h : YieldsBelow stage context holds run)
    (hnext : ∀ a, holds a → YieldsBelow stage context holds' (next a)) :
    YieldsBelow stage context holds' (run >>= next) := by
  intro supply hsupply
  obtain ⟨result, trace, middle, hrun, hmiddle, hholds⟩ := h supply hsupply
  cases result with
  | error error => exact ⟨_, _, middle, hrun.bind_error, hmiddle, fun _ hb => by cases hb⟩
  | ok a =>
    obtain ⟨result, trace', after, hrest, hafter, hholds'⟩ := hnext a (hholds a rfl) middle hmiddle
    exact ⟨_, _, after, hrun.bind hrest, hafter, hholds'⟩

theorem mapM {f : β → EStateM EvalError Machine α} {items : List β}
    (h : ∀ item ∈ items, YieldsBelow stage context holds (f item)) :
    YieldsBelow stage context (fun found => ∀ a ∈ found, holds a) (items.mapM f) := by
  induction items with
  | nil =>
    rw [List.mapM_nil]
    exact pure (by simp)
  | cons item rest ih =>
    obtain ⟨hitem, hrest⟩ := List.forall_mem_cons.mp h
    rw [List.mapM_cons]
    exact hitem.bind fun a ha => (ih hrest).bind fun found hfound =>
      pure (List.forall_mem_cons.mpr ⟨ha, hfound⟩)

end YieldsBelow

namespace Agreement

/-- Equality up to the names of the objects of a stage and of those above it. -/
def raising (stage : Nat) : Agreement :=
  ⟨raise stage, (renamesFrom_raise stage).1, fun _ => True, True⟩

theorem raising_supplies {supply : InstanceId} (hsupply : supply.stage < stage) :
    (raising stage).Supplies supply supply :=
  fun made => (renamesFrom_raise stage).2 (supply.advance made) hsupply

end Agreement

namespace Expr

variable {env : Environment} {context : Context} {e : Expr}

/-- A value of an expression keeps its objects under all other names for the objects from the stage
on, so it has none of these. -/
theorem evaluate_yieldsBelow (henv : env.FromBelow stage) (he : e.FromBelow stage)
    (hcontext : context.FromBelow stage) :
    YieldsBelow stage context
      (fun resolution => ∀ value, resolution = .resolved (.value value) → value.FromBelow stage)
      (e.evaluate env) := by
  intro supply hsupply
  have hraise := renamesFrom_raise stage
  obtain ⟨result, trace, made, hfirst, hsecond, -⟩ := evaluate_agrees (henv _ hraise)
    (he.admits hraise (fun _ _ => trivial) trivial) (hcontext.contexts hraise)
    (Agreement.raising_supplies hsupply)
  refine ⟨result, trace, supply.advance made, hfirst, hsupply, ?_⟩
  rintro _ rfl value rfl
  have houtcome := hfirst.outcomeOf_eq.symm.trans hsecond.outcomeOf_eq
  have hresolution := Except.ok.inj (congrArg Outcome.result houtcome)
  exact Value.fromBelow_of_rename_eq (Operand.value.inj (Resolution.resolved.inj hresolution)).symm

theorem evaluateValue_yieldsBelow (henv : env.FromBelow stage) (he : e.FromBelow stage)
    (hcontext : context.FromBelow stage) :
    YieldsBelow stage context (Value.FromBelow stage) (e.evaluateValue env) := by
  refine (evaluate_yieldsBelow henv he hcontext).bind fun resolution hresolution => ?_
  cases resolution with
  | resolved operand =>
    cases operand with
    | value value => exact .pure (hresolution value rfl)
    | unresolved => exact .pure (Value.fromBelow_null stage)
  | unbound missing =>
    have hwarn : YieldsBelow stage context (fun _ => True)
        (modify fun machine : Machine => machine.warn (.unboundVariable missing.name)) :=
      fun supply hsupply => ⟨_, _, supply, .warn _, hsupply, fun _ _ => trivial⟩
    exact hwarn.bind fun _ _ => .pure (Value.fromBelow_null stage)

end Expr

namespace Cursor

variable {scope : Scope} {number : Nat} {results : List Expr}

theorem rowValues_yieldsBelow (hscope : scope.FromBelow stage)
    (hresults : ∀ e ∈ results, e.FromBelow stage) {context : Context}
    (hcontext : context.FromBelow stage) :
    YieldsBelow stage context (fun values => ∀ value ∈ values, value.FromBelow stage)
      (rowValues scope results) :=
  .mapM fun e he => e.evaluateValue_yieldsBelow hscope.environment (hresults e he) hcontext

theorem row_fromBelow (hscope : scope.FromBelow stage) (hresults : ∀ e ∈ results, e.FromBelow stage)
    {context : Context} (hcontext : context.FromBelow stage) {supply : InstanceId}
    (hsupply : supply.stage < stage) {row : Value}
    (h : (outcomeOf (rowValues scope results) context supply).result.map rowValue = .ok row) :
    row.FromBelow stage := by
  cases hvalues : (outcomeOf (rowValues scope results) context supply).result with
  | error error =>
    rw [hvalues] at h
    cases h
  | ok values =>
    rw [hvalues] at h
    obtain rfl := Except.ok.inj h
    exact Value.fromBelow_rowValue
      ((rowValues_yieldsBelow hscope hresults hcontext).outcomeOf hsupply hvalues)

end Cursor

/-! ### Stages -/

/-- The values among events lie below the stage. -/
def Event.FromBelow (events : List Event) (stage : Nat) : Prop :=
  ∀ value ∈ Event.values events, value.FromBelow stage

namespace Stage

open Cursor

/-- The expressions that a stage makes values by. -/
def results : Stage → List Expr
  | project results | aggregate results => results
  | _ => []

theorem opened_fromBelow {scope : Scope} {number : Nat} (hnumber : number < stage)
    (hscope : scope.FromBelow stage) (source : Stage)
    (hresults : ∀ e ∈ source.results, e.FromBelow stage) {events given : List Event}
    (hevents : Event.FromBelow events stage)
    (h : (source.opened scope number events).1 = .ok given) : Event.FromBelow given stage := by
  cases source with
  | filter condition =>
    obtain rfl := Except.ok.inj h
    exact fun value hvalue => hevents value
      ((values_selected_sublist scope number condition events).subset hvalue)
  | range extent =>
    obtain rfl := Except.ok.inj h
    exact fun value hvalue => hevents value ((values_ranged_sublist events extent).subset hvalue)
  | project results =>
    obtain rfl := Except.ok.inj h
    intro row hrow
    obtain ⟨turn, candidate, hcandidate, hrow⟩ := exists_rowOf_of_projected hrow
    exact row_fromBelow hscope hresults
      (hscope.context.setCandidate (hevents candidate hcandidate)) hnumber hrow
  | sort keys =>
    obtain ⟨_, rows, rfl, rfl, rfl⟩ := sort_opened_eq_ok h
    rw [Event.FromBelow, Event.values_map_ok] at hevents ⊢
    exact fun value hvalue => hevents value ((SortKey.sorted_perm keys rows).subset hvalue)
  | aggregate results =>
    obtain ⟨values, row, rfl, hrow, rfl⟩ := aggregate_opened_eq_ok h
    rw [Event.FromBelow, Event.values_map_ok] at hevents
    have hcontext : Context.FromBelow { scope.context with resultSet := some values } stage := {
      hscope.context with
      resultSet := fun members hmembers => Option.some.inj hmembers ▸ hevents }
    intro value hvalue
    obtain rfl := List.mem_singleton.mp hvalue
    exact row_fromBelow hscope hresults hcontext hnumber hrow

end Stage

/-! ### Stacks of stages -/

namespace Cursor

variable {scope : Scope} {candidates : List Value}

theorem beginAll_fromBelow (hscope : scope.FromBelow stage) {stages : Numbered}
    (hstages : ∀ source ∈ stages, source.2 < stage ∧ ∀ e ∈ source.1.results, e.FromBelow stage)
    {events given : List Event} (hevents : Event.FromBelow events stage)
    (h : beginAll scope events stages = .ok given) : Event.FromBelow given stage := by
  induction stages generalizing events with
  | nil =>
    obtain rfl := Except.ok.inj h
    exact hevents
  | cons head rest ih =>
    obtain ⟨source, number⟩ := head
    obtain ⟨⟨hnumber, hresults⟩, hrest⟩ := List.forall_mem_cons.mp hstages
    rw [beginAll] at h
    cases hopened : source.opened scope number events with
    | mk result left =>
      rw [hopened] at h
      cases result with
      | error error => cases h
      | ok middle =>
        have hmiddle := source.opened_fromBelow hnumber hscope hresults hevents
          (congrArg Prod.fst hopened)
        exact ih hrest hmiddle h

/-- Once begun, the cursor gives events, and the values among them lie below the stage. -/
def Feeds (child : Cursor) (stage : Nat) : Prop :=
  ∀ state trace, child.init ⟨child.start, .empty⟩ = .ok () ⟨state, trace⟩ →
    ∃ kept events, child.Gives kept state events ∧ Event.FromBelow events stage

theorem ofStages_feeds {stages : List Stage} (hscope : scope.FromBelow (stages.length + 1))
    (hcandidates : ∀ value ∈ candidates, value.FromBelow (stages.length + 1))
    (hresults : ∀ source ∈ stages, ∀ e ∈ source.results, e.FromBelow (stages.length + 1)) :
    (ofStages scope candidates stages).Feeds (stages.length + 1) := by
  have := hscope.environment.evaluatesArguments
  rw [ofStages_eq_stack]
  intro state trace hinit
  have hwaits := waits_start scope candidates (stages.zipIdx 1)
  cases hfault : faultOf? (stages.zipIdx 1) with
  | some error =>
    rw [hwaits.init_of_fault hfault] at hinit
    cases hinit
  | none =>
    have hbegin := hwaits.init_of_faultless hfault
    cases hgiven : beginAll scope (available candidates none) (stages.zipIdx 1) with
    | error stall =>
      rw [hgiven] at hbegin
      obtain ⟨last, trace', -, hstalls⟩ := hbegin
      rw [hstalls] at hinit
      cases hinit
    | ok given =>
      rw [hgiven] at hbegin
      obtain ⟨last, trace', hgives, hbegins⟩ := hbegin
      rw [hbegins] at hinit
      cases hinit
      refine ⟨_, given, hgives, beginAll_fromBelow hscope ?_ ?_ hgiven⟩
      · rintro ⟨source, number⟩ hmem
        obtain ⟨-, hnumber, hsource⟩ := List.mem_zipIdx hmem
        refine ⟨by simpa [Nat.add_comm] using hnumber, hresults source ?_⟩
        exact List.fst_mem_of_mem_zipIdx hmem
      · rwa [available, Option.getD_none, Event.FromBelow, Event.values_map_ok]

end Cursor

end ObjectQuery
