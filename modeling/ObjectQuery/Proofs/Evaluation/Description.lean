import ObjectQuery.Proofs.Evaluation.Safety
import ObjectQuery.Proofs.Method.Description
import ObjectQuery.Proofs.Value.Representative

/-!
Evaluations keep objects described. Main statement: if what an evaluation reads agrees on the type
and the identity of the object of each name, so does all that it comes to, with the objects that it
has made itself.
-/

namespace ObjectQuery

variable {kinds later : Kinds}

open Eval

/-! ### Paths, types and calls -/

theorem Value.Described.setField {object : Object} (h : object.toValue.Described kinds)
    {value : Value} (hvalue : value.Described kinds) (name : String) :
    (object.setField name value).toValue.Described kinds := by
  refine .node h.self fun child hchild => ?_
  rcases List.mem_append.mp hchild with hfield | hidentity
  · obtain ⟨field, hmem, rfl⟩ := List.mem_map.mp hfield
    rcases Bindings.mem_insert hmem with rfl | hmem
    · exact hvalue
    · exact h.child _ (List.mem_append_left _ (List.mem_map_of_mem hmem))
  · exact h.child child (List.mem_append_right _ hidentity)

theorem Constructor.described_build (c : Constructor) {id : InstanceId} {typeName : String}
    {args : List Value} (hid : kinds id = some (typeName, none))
    (hargs : ∀ arg ∈ args, arg.Described kinds) :
    (c.build id typeName args).toValue.Described kinds := by
  refine List.foldlRecOn (motive := fun object : Object => object.toValue.Described kinds)
    (c.params.zip args) _ (Value.described_object hid (by simp)) fun object hobject pair hpair => ?_
  exact hobject.setField (hargs _ (List.of_mem_zip hpair).2) _

namespace Environment

/-- What evaluations read agrees on what the names of objects stand for, and the methods that the
program has registered keep it so. -/
structure Described (kinds : Kinds) (env : Environment) : Prop where
  loads : ∀ object index value, env.access.fetch object index = .ok value → value.Described kinds
  methods : env.registry.Every (Method.Preserves kinds)

variable {env : Environment}

theorem Described.mono (h : env.Described kinds) (hlater : later.Extends kinds) :
    env.Described later where
  loads object index value hvalue := (h.loads object index value hvalue).mono hlater
  methods := h.methods.imp fun _ hmethod => hmethod.mono hlater

theorem load_preserves (henv : env.Described kinds) (object : Object) (index : Nat) :
    Preserves kinds (Eval.load env.access object index) Value.Described :=
  .of_quiet (.load env.access object index) fun _ hlater value hfetch =>
    (henv.loads object index value hfetch).mono hlater

theorem member_preserves (henv : env.Described kinds) {object : Object}
    (hobject : object.toValue.Described kinds) (name : String) :
    Preserves kinds (env.member object name) fun later found =>
      ∀ value ∈ found, value.Described later := by
  rw [member]
  cases env.access.fieldIndex? object name with
  | some index =>
    refine (load_preserves henv object index).bind fun _ _ value hvalue => .pure ?_
    rintro later hlater _ ⟨⟩
    exact hvalue.mono hlater
  | none => exact .pure fun later hlater value hvalue => (hobject.field hvalue).mono hlater

theorem navigate_preserves (henv : env.Described kinds) {value : Value}
    (hvalue : value.Described kinds) (segments : List String) :
    Preserves kinds (env.navigate value segments) Operand.Described := by
  induction segments generalizing kinds value with
  | nil => cases value <;> exact .answer hvalue
  | cons segment rest ih =>
    cases value with
    | null => exact .flat rfl
    | object id typeName fields identity =>
      have hobject : (Object.mk id typeName fields identity).toValue.Described kinds := hvalue
      refine (member_preserves henv hobject segment).bind fun later hlater found hfound => ?_
      cases found with
      | some value => exact ih (henv.mono hlater) (hfound value rfl)
      | none => exact .unresolved _
    | map entries =>
      rw [navigate]
      cases hentry : textEntry? entries segment with
      | some value =>
        obtain ⟨entry, hmem, rfl⟩ := Option.map_eq_some_iff.mp hentry
        exact ih henv (hvalue.entry (List.mem_of_find?_eq_some hmem)).2
      | none => exact .unresolved _
    | _ => exact .unresolved _

theorem described_pathRoot {context : Context} (hcontext : context.Described kinds)
    {segments rest : List String} {root : Value}
    (h : pathRoot context segments = (some root, rest)) : root.Described kinds := by
  rw [pathRoot.eq_def] at h
  split at h
  · exact hcontext.state _ root (Prod.mk.inj h).1
  · split at h
    · exact hcontext.state _ root (Prod.mk.inj h).1
    · split at h
      · rename_i value hvalue
        obtain rfl := Option.some.inj (Prod.mk.inj h).1
        exact hcontext.state _ _ hvalue
      · exact hcontext.state _ root (Prod.mk.inj h).1

theorem path_preserves (henv : env.Described kinds) (segments : List String) :
    Preserves kinds (env.path segments) Operand.Described := by
  refine Preserves.context.bind fun later hlater context hcontext => ?_
  cases hroot : pathRoot context segments with
  | mk root rest =>
    cases root with
    | none => exact .unresolved _
    | some root =>
      exact navigate_preserves (henv.mono hlater) (described_pathRoot hcontext hroot) rest

theorem pathFrom_preserves (henv : env.Described kinds) {root : Operand}
    (hroot : root.Described kinds) (segments : List String) :
    Preserves kinds (env.pathFrom root segments) Operand.Described := by
  cases root with
  | value value => exact navigate_preserves henv hroot segments
  | unresolved => exact .flat rfl

theorem castTo_preserves (target : String) {source : Operand} (hsource : source.Described kinds) :
    Preserves kinds (env.castTo target source) Operand.Described := by
  cases source with
  | unresolved => exact .flat rfl
  | value value =>
    rw [castTo]
    split
    · exact .answer hsource
    · exact .unresolved _

theorem callFunction_preserves (henv : env.Described kinds) {call : Call}
    (hcall : ∀ argument ∈ call.receiver.toList ++ call.args, argument.Preserves kinds) :
    Preserves kinds (env.callFunction call) Operand.Described := by
  rw [callFunction]
  cases hmethod : env.registry.function? call.name with
  | none => exact .unresolved _
  | some method =>
    exact Method.evaluate_preserves (henv.methods.functions _ _ hmethod)
      (Value.described_of_isFlat kinds rfl) hcall

theorem callMethod_preserves (henv : env.Described kinds) {receiver : Value}
    (hreceiver : receiver.Described kinds) {call : Call}
    (hcall : ∀ argument ∈ call.receiver.toList ++ call.args, argument.Preserves kinds) :
    Preserves kinds (env.callMethod receiver call) Operand.Described := by
  simp only [callMethod]
  cases hmethod : env.methodFor? (env.receiverType? receiver call.declared) call.name with
  | none => exact .unresolved _
  | some method =>
    have hpreserves := henv.methods.methodFor? hmethod
    simp only
    split
    · exact .answer (Method.described_nullDefault hpreserves)
    · exact Method.evaluate_preserves hpreserves hreceiver hcall

/-- The object that is made has a name that stood for none. -/
theorem create_preserves (typeName : String) {args : List Value}
    (hargs : ∀ arg ∈ args, arg.Described kinds) :
    Preserves kinds (env.create typeName args) Operand.Described := by
  rw [create]
  cases env.catalog.resolve? typeName with
  | none => exact .fail
  | some full =>
    simp only
    cases env.catalog.constructor? full args with
    | none => exact .fail
    | some c =>
      refine (Preserves.fresh (full, none)).bind fun later hlater id hid => .answer ?_
      exact c.described_build hid fun arg harg => (hargs arg harg).mono hlater

end Environment

/-! ### Aggregates -/

namespace AggregateKind

theorem described_extreme {kind : AggregateKind} {wanted : Ordering} {values : List Value}
    {best : Value} (hvalues : ∀ value ∈ values, value.Described kinds)
    (h : kind.extreme wanted values = .ok best) : best.Described kinds := by
  cases values with
  | nil =>
    obtain rfl := Except.ok.inj h
    exact Value.described_of_isFlat kinds rfl
  | cons first rest =>
    rw [extreme] at h
    induction rest generalizing first with
    | nil =>
      obtain rfl := Except.ok.inj h
      exact hvalues first (by simp)
    | cons value rest ih =>
      rw [List.foldlM_cons] at h
      cases hbetter : kind.better wanted first value with
      | error error =>
        rw [hbetter] at h
        cases h
      | ok next =>
        rw [hbetter] at h
        have hnext : next.Described kinds := by
          rw [better] at hbetter
          split at hbetter
          · obtain rfl := Except.ok.inj hbetter
            split
            · exact hvalues value (by simp)
            · exact hvalues first (by simp)
          · cases hbetter
        refine ih next (List.forall_mem_cons.mpr ⟨hnext, fun other hother => ?_⟩) h
        exact hvalues other (by simp [hother])

theorem isFlat_of_compute_numeric {kind : AggregateKind} {f : List Value → Value}
    (hf : ∀ values, (f values).isNumeric) {values : List Value} {value : Value}
    (h : (do
      if values.isEmpty then return .null
      kind.requireNumeric values
      return f values : Except EvalError Value) = .ok value) : value.isFlat := by
  split at h
  · obtain rfl := Except.ok.inj h
    rfl
  · cases hrequire : kind.requireNumeric values with
    | error error =>
      rw [hrequire] at h
      cases h
    | ok _ =>
      rw [hrequire] at h
      obtain rfl := Except.ok.inj h
      exact Value.isFlat_of_isNumeric (hf values)

theorem described_compute {kind : AggregateKind} {values : List Value} {value : Value}
    (hvalues : ∀ v ∈ values, v.Described kinds) (h : kind.compute values = .ok value) :
    value.Described kinds := by
  have hcounting : ∀ v ∈ values.filter fun value => !value.isNull, v.Described kinds :=
    fun v hv => hvalues v (List.mem_of_mem_filter hv)
  cases kind with
  | count =>
    obtain rfl := Except.ok.inj h
    exact Value.described_of_isFlat kinds rfl
  | sum => exact Value.described_of_isFlat kinds (isFlat_of_compute_numeric total_isNumeric h)
  | avg => exact Value.described_of_isFlat kinds (isFlat_of_compute_numeric mean_isNumeric h)
  | min | max => exact described_extreme hcounting h

theorem select_subset (argument : AggregateArgument) (values : List Value) :
    argument.select values ⊆ values := by
  rw [AggregateArgument.select]
  split
  · exact firstsBy_subset Value.strictEq values
  · exact List.Subset.refl values

theorem collect_preserves {argument : AggregateArgument}
    (h : Preserves kinds argument.operand Operand.Described) {members : List Value}
    (hmembers : ∀ member ∈ members, member.Described kinds) :
    Preserves kinds (argument.collect members) fun later values =>
      ∀ value ∈ values, value.Described later := by
  induction members generalizing kinds with
  | nil => exact .pure fun _ _ => by simp
  | cons member rest ih =>
    have hset : Preserves kinds (Eval.modifyContext (·.setCandidate member)) fun _ _ => True :=
      .modifyContext fun later hlater context hcontext =>
        hcontext.setCandidate ((hmembers member (by simp)).mono hlater)
    refine hset.bind fun later hlater _ _ => (h.mono hlater).bind fun latest hlatest operand
      hoperand => ?_
    have hrest := ih (h.mono (hlatest.trans hlater)) fun other hother =>
      (hmembers other (by simp [hother])).mono (hlatest.trans hlater)
    cases operand with
    | value value =>
      refine hrest.bind fun middle hmiddle values hvalues => .pure fun last hlast => ?_
      refine List.forall_mem_cons.mpr ⟨?_, fun other hother => (hvalues other hother).mono hlast⟩
      exact (hoperand.mono hmiddle).mono hlast
    | unresolved => exact hrest

theorem evaluate_preserves (kind : AggregateKind) {argument : AggregateArgument}
    (h : Preserves kinds argument.operand Operand.Described) :
    Preserves kinds (kind.evaluate argument) Operand.Described := by
  refine Preserves.context.bind fun later hlater context hcontext => ?_
  cases hmembers : context.resultSet with
  | none => exact .unresolved _
  | some members =>
    refine (collect_preserves (h.mono hlater)
      (hcontext.resultSet members hmembers)).restoring.bind fun latest _ values hvalues => ?_
    have hcompute : Preserves latest (Eval.ofExcept (kind.compute (argument.select values)))
        Value.Described :=
      .ofExcept fun value hvalue middle hmiddle =>
        (described_compute (fun v hv => hvalues v (select_subset argument values hv))
          hvalue).mono hmiddle
    exact hcompute.bind fun _ _ value hvalue => .answer hvalue

end AggregateKind

/-! ### Operands on the stack -/

theorem Eval.Preserves.bothOperands {left right : Eval Operand}
    {next : Operand → Operand → Eval Operand} (hleft : Preserves kinds left Operand.Described)
    (hright : Preserves kinds right Operand.Described)
    (hnext : ∀ l r, Quiet (next l r) fun operand => operand.isFlat) :
    Preserves kinds (do
      Eval.push (← left)
      Eval.push (← right)
      let r ← Eval.pop
      let l ← Eval.pop
      next l r) Operand.Described := by
  refine hleft.bind fun first hfirst l hl => (Preserves.push hl).bind fun second hsecond _ _ => ?_
  refine (hright.mono (hsecond.trans hfirst)).bind fun third _ r hr => ?_
  refine (Preserves.push hr).bind fun _ _ _ _ => Preserves.pop.bind fun _ _ r _ => ?_
  exact Preserves.pop.bind fun _ _ l _ => .of_flat (hnext l r)

theorem Argument.visitAll_preserves {args : List Argument}
    (h : ∀ argument ∈ args, argument.Preserves kinds) :
    Eval.Preserves kinds (args.forM Argument.visit) fun _ _ => True := by
  induction args with
  | nil => exact .pure fun _ _ => trivial
  | cons argument rest ih =>
    obtain ⟨hargument, hrest⟩ := List.forall_mem_cons.mp h
    exact Eval.Preserves.bind hargument fun _ hlater _ _ => (ih hrest).mono hlater

theorem Environment.described_of_allValues {operands : List Operand} {values : List Value}
    (h : allValues operands = some values) (hoperands : ∀ operand ∈ operands,
      operand.Described kinds) : ∀ value ∈ values, value.Described kinds := by
  induction operands generalizing values with
  | nil =>
    obtain rfl := Option.some.inj h
    simp
  | cons operand rest ih =>
    obtain ⟨hoperand, hrest⟩ := List.forall_mem_cons.mp hoperands
    cases operand with
    | unresolved => cases h
    | value value =>
      obtain ⟨others, hothers, rfl⟩ := Option.map_eq_some_iff.mp h
      exact List.forall_mem_cons.mpr ⟨hoperand, ih hothers hrest⟩

/-! ### Expressions -/

namespace Expr

variable {env : Environment}

/-- All objects in the values that an expression gives itself are what their names stand for. -/
def Described (kinds : Kinds) (e : Expr) : Prop :=
  e.All fun node => ∀ value, node = literal value → value.Described kinds

/-- Wherever the expression stands, its evaluation keeps objects described. -/
def Preserves (kinds : Kinds) (env : Environment) (e : Expr) : Prop :=
  ∀ position, Eval.Preserves kinds (e.result env position) Operand.Described

theorem Preserves.mono {e : Expr} (h : e.Preserves kinds env) (hlater : later.Extends kinds) :
    e.Preserves later env := fun position => (h position).mono hlater

theorem Preserves.operandOf {e : Expr} (h : e.Preserves kinds env) (position : Position) :
    Eval.Preserves kinds (operandOf (e.result env position)) Operand.Described := by
  rw [operandOf_eq]
  exact h position

theorem Preserves.visit {e : Expr} (h : e.Preserves kinds env) :
    Eval.Preserves kinds (e.visit env) fun _ _ => True :=
  (h .operand).bind fun _ _ _ hoperand => .push hoperand

theorem arguments_preserve {es : List Expr} (h : ∀ e ∈ es, e.Preserves kinds env) :
    ∀ argument ∈ arguments env es, argument.Preserves kinds := by
  induction es with
  | nil => simp [arguments]
  | cons e rest ih =>
    obtain ⟨he, hrest⟩ := List.forall_mem_cons.mp h
    exact List.forall_mem_cons.mpr ⟨he.visit, ih hrest⟩

theorem elementValues_preserves {es : List Expr} (h : ∀ e ∈ es, e.Preserves kinds env) :
    Eval.Preserves kinds (elementValues env es) fun later values =>
      ∀ vs ∈ values, ∀ value ∈ vs, value.Described later := by
  induction es generalizing kinds with
  | nil => exact .pure fun _ _ => by simp
  | cons e rest ih =>
    obtain ⟨he, hrest⟩ := List.forall_mem_cons.mp h
    rw [elementValues]
    split
    · refine (he.operandOf .operand).bind fun later hlater operand hoperand => ?_
      cases operand with
      | unresolved => exact .pure fun _ _ => by simp
      | value value =>
        have hothers := ih fun other hother => (hrest other hother).mono hlater
        refine hothers.bind fun latest hlatest others hothers => .pure ?_
        intro last hlast values hmap
        obtain ⟨found, rfl, rfl⟩ := Option.map_eq_some_iff.mp hmap
        refine List.forall_mem_cons.mpr ⟨(hoperand.mono hlatest).mono hlast, fun other hother => ?_⟩
        exact (hothers found rfl other hother).mono hlast
    · exact (Eval.Preserves.warn _).bind fun _ _ _ _ => .pure fun _ _ => by simp

theorem decideBranch_preserves (condition : Operand) {value otherwise : Eval Operand}
    (hvalue : Eval.Preserves kinds value Operand.Described)
    (hotherwise : Eval.Preserves kinds otherwise Operand.Described) :
    Eval.Preserves kinds (decideBranch condition value otherwise) Operand.Described := by
  rw [decideBranch.eq_def]
  split
  · exact hvalue
  · exact hotherwise
  · exact .unresolved _

theorem firstBranch_preserves {branches : List (Expr × Expr)} {otherwise : Eval Operand}
    (h : ∀ branch ∈ branches, branch.1.Preserves kinds env ∧ branch.2.Preserves kinds env)
    (hotherwise : Eval.Preserves kinds otherwise Operand.Described) :
    Eval.Preserves kinds (firstBranch env branches otherwise) Operand.Described := by
  induction branches with
  | nil => exact hotherwise
  | cons branch rest ih =>
    obtain ⟨⟨hcondition, hvalue⟩, hrest⟩ := List.forall_mem_cons.mp h
    refine (hcondition.operandOf .operand).bind fun later hlater condition _ => ?_
    exact decideBranch_preserves condition ((hvalue.operandOf .operand).mono hlater)
      ((ih hrest).mono hlater)

theorem otherwiseOf_preserves {otherwise : Option Expr}
    (h : ∀ e ∈ otherwise, e.Preserves kinds env) :
    Eval.Preserves kinds (otherwiseOf env otherwise) Operand.Described := by
  cases otherwise with
  | none => exact .flat rfl
  | some e => exact (h e rfl).operandOf .operand

theorem binary_preserves {op : BinaryOperator} {left right : Expr}
    (hleft : left.Preserves kinds env) (hright : right.Preserves kinds env) :
    (binary op left right).Preserves kinds env := by
  intro position
  have htarget (later : Kinds) : Eval.Preserves later (Eval.ofExcept (env.typeOperand op right))
      fun _ _ => True := .ofExcept fun _ _ _ _ => trivial
  cases op with
  | cast =>
    rw [result]
    split
    · refine (hleft .root).bind fun later _ source hsource => ?_
      exact (htarget later).bind fun latest hlatest target _ =>
        Environment.castTo_preserves target (hsource.mono hlatest)
    · exact .fail
  | is | isNot =>
    refine (hleft.operandOf .operand).bind fun later _ operand _ => ?_
    exact (htarget later).bind fun _ _ _ _ => .flat rfl
  | _ =>
    exact Eval.Preserves.bothOperands (hleft .operand) (hright .operand)
      (BinaryOperator.apply_quiet _)

theorem unary_preserves {op : UnaryOperator} {operand : Expr} (h : operand.Preserves kinds env) :
    (unary op operand).Preserves kinds env := by
  intro position
  rw [result]
  split
  · exact h .operand
  · have hshape : Eval.Preserves kinds (Eval.ofExcept (op.checkShape operand)) fun _ _ => True :=
      .ofExcept fun _ _ _ _ => trivial
    refine hshape.bind fun later hlater _ _ => ?_
    exact ((h.operandOf .operand).mono hlater).bind fun _ _ value _ =>
      .of_flat (op.apply_quiet value)

theorem invoke_preserves (henv : env.Described kinds) {receiver : Option Expr} {method : String}
    {args : List Expr} {declared : Option String}
    (hreceiver : ∀ e ∈ receiver, e.Preserves kinds env)
    (hargs : ∀ e ∈ args, e.Preserves kinds env) :
    (invoke receiver method args declared).Preserves kinds env := by
  intro position
  have hpass := arguments_preserve hargs
  cases receiver with
  | none =>
    have hcall : Eval.Preserves kinds
        (env.callFunction ⟨none, method, arguments env args, declared⟩) Operand.Described :=
      Environment.callFunction_preserves henv hpass
    rw [result]
    cases AggregateKind.ofName? method with
    | none => exact hcall
    | some kind =>
      cases hargument : aggregated? env args with
      | none => exact hcall
      | some argument =>
        refine kind.evaluate_preserves ?_
        -- An aggregate takes one argument.
        rw [aggregated?.eq_def] at hargument
        split at hargument
        · obtain rfl := Option.some.inj hargument
          exact (hargs _ (by simp)).operandOf .aggregated
        · cases hargument
  | some e =>
    have he := hreceiver e rfl
    refine (he.operandOf .operand).bind fun later hlater operand hoperand => ?_
    cases operand with
    | unresolved => exact .flat rfl
    | value receiver =>
      refine Environment.callMethod_preserves (henv.mono hlater) hoperand ?_
      intro argument hargument
      rcases List.mem_cons.mp hargument with rfl | hargument
      · exact he.visit.mono hlater
      · exact (hpass argument hargument).mono hlater

theorem variableOperand_preserves (position : Position) (name : String) :
    Eval.Preserves kinds (variableOperand position name) Operand.Described := by
  refine Eval.Preserves.context.bind fun later _ context hcontext => ?_
  cases hvalue : context.binding? name with
  | some value => exact .answer (hcontext.binding hvalue)
  | none =>
    simp only
    split
    · exact .unresolved _
    · exact .stopOn name (by simp)

theorem creator_preserves {typeName : String} {args : List Expr}
    (h : ∀ e ∈ args, e.Preserves kinds env) : (creator typeName args).Preserves kinds env := by
  intro position
  refine (Argument.visitAll_preserves (arguments_preserve h)).bind fun later _ _ _ => ?_
  refine (Eval.Preserves.popMany _).bind fun latest _ operands hoperands => ?_
  cases hvalues : Environment.allValues operands with
  | none => exact .flat rfl
  | some values =>
    exact Environment.create_preserves typeName
      (Environment.described_of_allValues hvalues hoperands)

theorem result_preserves (henv : env.Described kinds) {e : Expr} (he : e.Described kinds) :
    e.Preserves kinds env := by
  rw [Described] at he
  induction he with
  | @node e hself hbelow ih =>
    cases e with
    | literal value => exact fun _ => .answer (hself value rfl)
    | parameter name =>
      exact fun _ => Eval.Preserves.context.bind fun _ _ _ hcontext =>
        .answer (hcontext.parameters name)
    | var name => exact fun position => variableOperand_preserves position name
    | path qualifier segments =>
      cases qualifier with
      | none => exact fun _ => Environment.path_preserves henv segments
      | some qualifier =>
        exact fun _ => (ih qualifier (by simp [children]) .root).bind fun _ hlater _ hroot =>
          Environment.pathFrom_preserves (henv.mono hlater) hroot segments
    | binary op left right =>
      exact binary_preserves (ih left (by simp [children])) (ih right (by simp [children]))
    | unary op operand => exact unary_preserves (ih operand (by simp [children]))
    | invoke receiver method args declared =>
      refine invoke_preserves henv (fun e he => ih e ?_) fun e he => ih e ?_
      all_goals simp_all [children]
    | creator typeName args => exact creator_preserves ih
    | conditional branches otherwise =>
      intro position
      refine firstBranch_preserves (fun branch hbranch => ⟨ih branch.1 ?_, ih branch.2 ?_⟩)
        (otherwiseOf_preserves fun e he => ih e ?_)
      · exact List.mem_append_left _ (List.mem_flatMap.mpr ⟨branch, hbranch, by simp⟩)
      · exact List.mem_append_left _ (List.mem_flatMap.mpr ⟨branch, hbranch, by simp⟩)
      · exact List.mem_append_right _ (by simpa using he)
    | array elements =>
      intro position
      refine (elementValues_preserves ih).bind fun later _ values hvalues => ?_
      cases values with
      | none => exact .flat rfl
      | some values => exact .answer (Value.described_array (hvalues values rfl))

end Expr

end ObjectQuery
