import ObjectQuery.Proofs.Cursor.Lineage
import ObjectQuery.Proofs.Evaluation.Operands

/-!
Conjunctions as conditions. Main statement: where a selection by a conjunction without variables
reports no error, two selections one above the other, by its first and by its second side, give the
same values. They may evaluate less: the upper one never sees what the lower one has dropped.
-/

namespace ObjectQuery

/-! ### The names of objects that a lower stage makes -/

namespace InstanceId

/-- The names that the objects of the next stage have if this stage makes them, after so many
others. -/
def lower (stage made : Nat) (id : InstanceId) : InstanceId :=
  if id.stage = stage + 1 then ⟨stage, id.turn, id.serial + made⟩
  else if id.stage = stage then ⟨stage + 1, id.turn, id.serial⟩
  else id

theorem lower_injective (stage made : Nat) : Function.Injective (lower stage made) := by
  rintro ⟨s, t, n⟩ ⟨s', t', n'⟩ h
  simp only [lower] at h
  split at h <;> split at h <;> grind

theorem renamesFrom_lower (stage made : Nat) : RenamesFrom stage (lower stage made) := by
  refine ⟨lower_injective stage made, fun id hid => ?_⟩
  rw [lower, if_neg (by omega), if_neg (by omega)]

end InstanceId

namespace Agreement

/-- Equality up to the stage that makes the objects, for evaluations that meet no variable. -/
def lowering (stage made : Nat) : Agreement :=
  ⟨InstanceId.lower stage made, InstanceId.lower_injective stage made, fun _ => False, True⟩

theorem lowering_supplies (stage made : Nat) :
    (lowering stage made).Supplies (Cursor.stageSupply (stage + 1) 0)
      ((Cursor.stageSupply stage 0).advance made) := by
  intro more
  simp [lowering, InstanceId.lower, InstanceId.advance, Cursor.stageSupply, Nat.add_comm]

end Agreement

/-! ### What a conjunction comes to -/

namespace BinaryOperator

variable {left right operand : Operand} {b : Bool}

theorem isTrue_of_logical {op : BinaryOperator} (h : op.logical operand = .ok b) :
    operand.isTrue = b := by
  cases operand with
  | unresolved => exact Except.ok.inj h
  | value value => cases value <;> first | exact Except.ok.inj h | cases h

theorem conjunction_isTrue (h : conjunction left right = .ok operand) :
    operand.isTrue = (left.isTrue && right.isTrue) := by
  rw [conjunction] at h
  split at h
  next hunresolved =>
    obtain rfl := Except.ok.inj h
    rcases Bool.or_eq_true_iff.mp hunresolved with hleft | hright
    · cases left with
      | unresolved => rfl
      | value value => cases hleft
    · cases right with
      | unresolved => exact (Bool.and_false _).symm
      | value value => cases hright
  next =>
    obtain ⟨l, hleft, h⟩ := Except.bind_eq_ok.mp h
    obtain ⟨r, hright, h⟩ := Except.bind_eq_ok.mp h
    obtain rfl := Except.ok.inj h
    rw [isTrue_of_logical hleft, isTrue_of_logical hright]
    rfl

end BinaryOperator

namespace Expr

/-- The conjunction of two conditions. -/
def and (left right : Expr) : Expr := binary .and left right

theorem and_resolution {env : Environment} {context : Context}
    {supply supply' supply'' : InstanceId} {trace trace' : Trace} {left right : Expr}
    {l r : Operand}
    (hleft : Settles (left.result env .operand) context supply ⟨.ok l, context, trace, supply'⟩)
    (hright : Settles (right.result env .operand) context supply'
      ⟨.ok r, context, trace', supply''⟩) :
    (left.and right).resolution env context supply =
      (BinaryOperator.conjunction l r).map .resolved := by
  rw [and]
  have hrun : BinaryOperator.and.apply l r =
      Eval.ofExcept (BinaryOperator.conjunction l r) := rfl
  cases h : BinaryOperator.conjunction l r with
  | error error =>
    have happly : Settles (BinaryOperator.and.apply l r) context supply''
        ⟨.error (.fatal error), context, .empty, supply''⟩ := by
      rw [hrun, h]
      exact .throw _
    exact binary_resolution rfl hleft hright happly
  | ok operand =>
    have happly : Settles (BinaryOperator.and.apply l r) context supply''
        ⟨.ok operand, context, .empty, supply''⟩ := by
      rw [hrun, h]
      exact .pure operand
    exact binary_resolution rfl hleft hright happly

end Expr

/-- Whether an evaluation comes to the truth value true. -/
def Resolution.isTrue : Resolution → Bool
  | .resolved operand => operand.isTrue
  | .unbound _ => false

namespace Cursor

variable {scope : Scope} {stage : Nat} {condition first second : Expr} {candidate : Value}

/-! ### Conditions without variables -/

theorem keeps_of_closed [scope.environment.registry.EvaluatesArguments]
    (hclosed : variableNames condition = []) :
    keeps scope stage condition candidate =
      (roundResult scope.environment condition stage 0 (scope.context.setCandidate candidate)).map
        Resolution.isTrue := by
  obtain ⟨trace, made, hevaluate⟩ := condition.evaluate_settles scope.environment
    (scope.context.setCandidate candidate) (stageSupply stage 0)
  rw [← roundResult] at hevaluate
  cases hround : roundResult scope.environment condition stage 0
    (scope.context.setCandidate candidate) with
  | error error =>
    rw [hround] at hevaluate
    have hrun : Settles (satisfied scope.environment condition scope.declared)
        (scope.context.setCandidate candidate) (stageSupply stage 0) _ :=
      (Settles.beginTurn 0).bind hevaluate.bind_error
    rw [keeps, hrun.outcomeOf_eq]
    rfl
  | ok resolution =>
    rw [hround] at hevaluate
    cases resolution with
    | resolved operand =>
      have hrun : Settles (satisfied scope.environment condition scope.declared)
          (scope.context.setCandidate candidate) (stageSupply stage 0) _ :=
        (Settles.beginTurn 0).bind (hevaluate.bind (.pure operand.isTrue))
      rw [keeps, hrun.outcomeOf_eq]
      rfl
    | unbound missing =>
      have hmem := (Expr.unbound_of_resolution hround).1
      simp [hclosed] at hmem

theorem result_settles_lowered {env : Environment} (henv : env.FromBelow stage) {base : Context}
    (hbase : base.FromBelow stage) (he : condition.FromBelow stage)
    (hclosed : variableNames condition = []) (made : Nat) :
    ∃ (result : Except Halt Operand) (trace : Trace) (last last' : InstanceId),
      Settles (condition.result env .operand) base (stageSupply (stage + 1) 0)
        ⟨result, base, trace, last⟩ ∧
      Settles (condition.result env .operand) base ((stageSupply stage 0).advance made)
        ⟨(Agreement.lowering stage made).image
          (Operand.rename (InstanceId.lower stage made)) result,
          base, trace, last'⟩ := by
  have hlower := InstanceId.renamesFrom_lower stage made
  obtain ⟨result, trace, more, hupper, hbelow, -⟩ := (Expr.result_agrees (henv _ hlower)
    (he.admits hlower (by simp [hclosed]) trivial) .operand _ _ (hbase.contexts hlower)).settles
    (Agreement.lowering_supplies stage made)
  exact ⟨result, trace, _, _, hupper, hbelow⟩

theorem fatal_of_closed {env : Environment} [env.registry.EvaluatesArguments] {context : Context}
    {supply last : InstanceId} {trace : Trace} {halt : Halt}
    (hclosed : variableNames condition = [])
    (h : Settles (condition.result env .operand) context supply
      ⟨.error halt, context, trace, last⟩) :
    ∃ error, halt = .fatal error := by
  cases halt with
  | fatal error => exact ⟨error, rfl⟩
  | unbound missing =>
    have hmem := (Expr.unbound_of_resolution (Expr.resolution_of_result h)).1
    simp [hclosed] at hmem

/-- A conjunction that does not fail keeps what the first side keeps and, on the next stage, the
second one. -/
theorem keeps_and (hscope : scope.FromBelow stage) (hcandidate : candidate.FromBelow stage)
    (hsecond : second.FromBelow stage)
    (hfirstClosed : variableNames first = []) (hsecondClosed : variableNames second = []) {b : Bool}
    (h : keeps scope stage (first.and second) candidate = .ok b) :
    ∃ l r, keeps scope stage first candidate = .ok l ∧
      keeps scope (stage + 1) second candidate = .ok r ∧ b = (l && r) := by
  have hclosed : variableNames (first.and second) = [] := by
    rw [Expr.and, variableNames, hfirstClosed, hsecondClosed, List.append_nil]
  have := hscope.environment.evaluatesArguments
  rw [keeps_of_closed hclosed, roundResult] at h
  rw [keeps_of_closed hfirstClosed, keeps_of_closed hsecondClosed, roundResult, roundResult]
  have hbase := hscope.context.setCandidate hcandidate
  obtain ⟨result, trace, made, hleft, -, -⟩ := (Expr.result_agrees
    (.refl scope.environment) first.admits_refl .operand _ _ (.refl _ _)).settles
    (.refl _ (stageSupply stage 0))
  cases result with
  | error halt =>
    obtain ⟨error, rfl⟩ := fatal_of_closed hfirstClosed hleft
    rw [Expr.and, Expr.binary_resolution_of_left rfl hleft] at h
    cases h
  | ok l =>
    obtain ⟨result, trace', last, last', hupper, hlower⟩ :=
      result_settles_lowered hscope.environment hbase hsecond hsecondClosed made
    cases result with
    | error halt =>
      obtain ⟨error, rfl⟩ := fatal_of_closed hsecondClosed hupper
      rw [Expr.and, Expr.binary_resolution_of_right rfl hleft hlower] at h
      cases h
    | ok r =>
      rw [Expr.and_resolution hleft hlower] at h
      cases hconjunction : BinaryOperator.conjunction l
        (r.rename (InstanceId.lower stage made)) with
      | error error =>
        rw [hconjunction] at h
        cases h
      | ok operand =>
        rw [hconjunction] at h
        have htrue := BinaryOperator.conjunction_isTrue hconjunction
        rw [Operand.isTrue_rename] at htrue
        refine ⟨l.isTrue, r.isTrue, ?_, ?_, (Except.ok.inj h).symm.trans htrue⟩
        · rw [Expr.resolution_of_result hleft]
          rfl
        · rw [Expr.resolution_of_result hupper]
          rfl

/-! ### Stacked selections -/

theorem selected_of_keeps {b : Bool} (h : keeps scope stage condition candidate = .ok b)
    (rest : List Event) :
    selected scope stage condition (.ok candidate :: rest) =
      if b then .ok candidate :: selected scope stage condition rest
      else selected scope stage condition rest := by
  rw [selected, h]
  cases b <;> rfl

/-- If the selection by the conjunction meets no error, it is the two selections one after the
other. -/
theorem selected_selected (hscope : scope.FromBelow stage) (hsecond : second.FromBelow stage)
    (hfirstClosed : variableNames first = []) (hsecondClosed : variableNames second = [])
    {events : List Event} (hevents : Event.FromBelow events stage)
    (h : (Event.drained (selected scope stage (first.and second) events)).2 = none) :
    selected scope (stage + 1) second (selected scope stage first events) =
      selected scope stage (first.and second) events := by
  induction events with
  | nil => rfl
  | cons event rest ih =>
    cases event with
    | error error => cases h
    | ok candidate =>
      obtain ⟨hcandidate, hrest⟩ := List.forall_mem_cons.mp hevents
      cases hkeeps : keeps scope stage (first.and second) candidate with
      | error error =>
        rw [selected, hkeeps] at h
        cases h
      | ok b =>
        obtain ⟨l, r, hl, hr, rfl⟩ :=
          keeps_and hscope hcandidate hsecond hfirstClosed hsecondClosed hkeeps
        rw [selected_of_keeps hkeeps] at h ⊢
        rw [selected_of_keeps hl]
        cases l with
        | false => exact ih hrest h
        | true =>
          rw [if_pos rfl, selected_of_keeps hr]
          cases r with
          | false => exact ih hrest h
          | true => exact congrArg (Except.ok candidate :: ·) (ih hrest h)

theorem init_filter (scope : Scope) (stage : Nat) (condition : Expr) (child : Cursor) :
    (filter scope stage condition child).init ⟨(filter scope stage condition child).start, .empty⟩ =
      match child.init ⟨child.start, .empty⟩ with
      | .ok _ after => .ok () ⟨⟨after.state, some scope.context⟩, after.trace⟩
      | .error error after => .error error ⟨⟨after.state, none⟩, after.trace⟩ :=
  filter_init_of_notBegun rfl

/-- If a selection by a conjunction without variables is read to its end without an error, so are
two selections one above the other, and the values are the same, in the same order. What they stand
on may be anything that feeds the stage, as all stacks of the stages below it do. -/
theorem stacked_filters_fuse (scope : Scope) (stage : Nat) (first second : Expr) (child : Cursor)
    (hscope : scope.FromBelow stage) (hsecond : second.FromBelow stage)
    (hfirstClosed : variableNames first = []) (hsecondClosed : variableNames second = [])
    (hchild : child.Feeds stage) :
    let fused := (Running.start (filter scope stage (first.and second) child)).init
    let stacked :=
      (Running.start (filter scope (stage + 1) second (filter scope stage first child))).init
    ∀ values, fused.1 = .ok () → fused.2.readAll.1 = (values, none) →
      stacked.1 = .ok () ∧ stacked.2.readAll.1 = (values, none) := by
  intro fused stacked values hbegins hread
  have := hscope.environment.evaluatesArguments
  cases hinit : child.init ⟨child.start, .empty⟩ with
  | error error after =>
    have hfused : fused.1 = .error error := congrArg Prod.fst (Running.init_eq_error
      ((init_filter scope stage (first.and second) child).trans (by rw [hinit])))
    rw [hfused] at hbegins
    cases hbegins
  | ok _ after =>
    obtain ⟨below, trace⟩ := after
    obtain ⟨kept, events, hgives, hevents⟩ := hchild below trace hinit
    have hbegun : ∀ condition, (filter scope stage condition child).init
        ⟨(filter scope stage condition child).start, .empty⟩ =
        .ok () ⟨⟨below, some scope.context⟩, trace⟩ :=
      fun condition => (init_filter scope stage condition child).trans (by rw [hinit])
    have hbegunStacked : (filter scope (stage + 1) second (filter scope stage first child)).init
        ⟨(filter scope (stage + 1) second (filter scope stage first child)).start, .empty⟩ =
        .ok () ⟨⟨⟨below, some scope.context⟩, some scope.context⟩, trace⟩ :=
      (init_filter scope (stage + 1) second _).trans (by rw [hbegun])
    have hfused : fused = _ := Running.init_eq_ok (hbegun (first.and second))
    have hstacked : stacked = _ := Running.init_eq_ok hbegunStacked
    have hgivesFused : (filter scope stage (first.and second) child).Gives _ _ _ :=
      filter_gives (first.and second) hgives
    have hgivesLower : (filter scope stage first child).Gives _ _ _ := filter_gives first hgives
    have hgivesStacked : (filter scope (stage + 1) second (filter scope stage first child)).Gives
        _ _ _ := filter_gives second hgivesLower
    obtain ⟨_, hreadFused, -⟩ := Running.readAll_of_gives hgivesFused trace
    obtain ⟨_, hreadStacked, -⟩ := Running.readAll_of_gives hgivesStacked trace
    rw [hfused, hreadFused] at hread
    have hsame := selected_selected hscope hsecond hfirstClosed hsecondClosed hevents
      (congrArg Prod.snd hread)
    rw [hsame] at hreadStacked
    rw [hstacked, hreadStacked]
    exact ⟨rfl, hread⟩

/-- The truth values that are given and hold. -/
theorem stacked_filters_fuse_true :
    let scope : Scope := ⟨⟨.empty, .builtin, .detached⟩, "this", [], []⟩
    let self : Expr := .path none ["this"]
    let given : Expr := .binary .ne self (.literal .null)
    let child := ofStages scope [.boolean true, .null, .boolean false] []
    let fused := (Running.start (filter scope 1 (given.and self) child)).init
    let stacked := (Running.start (filter scope 2 self (filter scope 1 given child))).init
    scope.FromBelow 1 ∧ self.FromBelow 1 ∧ variableNames given = [] ∧
      variableNames self = [] ∧ child.Feeds 1 ∧ fused.1 = .ok () ∧
      fused.2.readAll.1 = ([.boolean true], none) ∧ stacked.1 = .ok () ∧
      stacked.2.readAll.1 = ([.boolean true], none) := by
  intro scope self given child fused stacked
  have hscope : scope.FromBelow 1 :=
    ⟨Environment.fromBelow_builtin .empty fun _ _ _ h => (by cases h), by simp [scope]⟩
  have hself : self.FromBelow 1 := .node (by simp [self]) (by simp [self, Expr.children])
  have hboolean : ∀ b, Value.FromBelow 1 (.boolean b) :=
    fun b => .node trivial (by simp [Value.children])
  have hchild : child.Feeds 1 := ofStages_feeds hscope
    (by simpa using ⟨hboolean true, Value.fromBelow_null 1, hboolean false⟩) (by simp)
  have hselected : selected scope 1 (given.and self)
      ([.boolean true, .null, .boolean false].map .ok) = [.ok (.boolean true)] := by
    rw [List.map_cons, selected_of_keeps (b := true) rfl, List.map_cons,
      selected_of_keeps (b := false) rfl, List.map_cons, selected_of_keeps (b := false) rfl]
    rfl
  have hread : fused.2.readAll.1 = ([.boolean true], none) := by
    have hgives : (filter scope 1 (given.and self) child).Gives _ _ _ :=
      filter_gives (given.and self) (scan_gives _ _ (Nat.le_refl _))
    obtain ⟨_, hrun, -⟩ := Running.readAll_of_gives hgives .empty
    rw [hselected] at hrun
    exact congrArg Prod.fst hrun
  obtain ⟨hbegins, hreadStacked⟩ := stacked_filters_fuse scope 1 given self child hscope hself
    rfl rfl hchild [.boolean true] rfl hread
  exact ⟨hscope, hself, rfl, rfl, hchild, rfl, hread, hbegins, hreadStacked⟩

end Cursor

end ObjectQuery
