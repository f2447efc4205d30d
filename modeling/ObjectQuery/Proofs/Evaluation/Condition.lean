import ObjectQuery.Proofs.Evaluation.Comparison
import ObjectQuery.Proofs.Evaluation.Navigation

/-!
Conditions: comparisons and tests of types of simple operands, joined by logical operators. Main
statement: a condition whose paths can be followed comes to a truth value, to null or to nothing,
and never fails on the type of an operand. Only truth values and nulls that stand on their own,
disjunctions and comparisons of order come to anything but a truth value.
-/

namespace ObjectQuery

variable {env : Environment} {context : Context}

theorem Settles.countLoad {ε : Type} {supply : InstanceId} :
    Settles (modify fun machine => { machine with trace := machine.trace.countLoad } :
      EStateM ε Machine Unit) context supply ⟨.ok (), context, ⟨[], 1⟩, supply⟩ :=
  ⟨[], fun _ _ => by rw [← Trace.countLoad_eq_append]; rfl⟩

/-! ### Paths -/

namespace Environment

/-- A computation that makes no objects and fails only if a field cannot be loaded. -/
def Follows {α : Type} (run : Eval α) (context : Context) : Prop :=
  ∃ result trace, (∀ supply, Settles run context supply ⟨result, context, trace, supply⟩) ∧
    ∀ halt, result = .error halt → ∃ cause, halt = .fatal (.fieldLoad cause)

namespace Follows

variable {α β : Type} {run : Eval α} {next : α → Eval β}

theorem pure (a : α) : Follows (pure a) context := ⟨_, _, fun _ => .pure a, by simp⟩

theorem unresolved (warning : Warning) : Follows (Eval.unresolved warning) context :=
  ⟨_, _, fun _ => (Settles.warn warning).bind (.pure _), by simp⟩

theorem bind (h : Follows run context) (hnext : ∀ a, Follows (next a) context) :
    Follows (run >>= next) context := by
  obtain ⟨result, trace, hsettles, hfails⟩ := h
  cases result with
  | error halt => exact ⟨_, _, fun supply => (hsettles supply).bind_error, by simpa using hfails⟩
  | ok a =>
    obtain ⟨result, trace', hrest, hfails'⟩ := hnext a
    exact ⟨result, _, fun supply => (hsettles supply).bind (hrest supply), hfails'⟩

theorem load (access : FieldAccess) (object : Object) (index : Nat) :
    Follows (Eval.load access object index) context := by
  rw [Eval.load]
  cases access.fetch object index with
  | ok value => exact ⟨_, _, fun _ => Settles.countLoad.bind (.pure value), by simp⟩
  | error cause => exact ⟨_, _, fun _ => .throw _, by simp⟩

end Follows

theorem member_follows (env : Environment) (object : Object) (name : String) :
    Follows (env.member object name) context := by
  rw [member]
  cases env.access.fieldIndex? object name with
  | none => exact .pure _
  | some index => exact (Follows.load env.access object index).bind fun value => .pure _

theorem navigate_follows (env : Environment) (value : Value) (segments : List String) :
    Follows (env.navigate value segments) context := by
  induction segments generalizing value with
  | nil =>
    rw [navigate_nil]
    exact .pure _
  | cons segment rest ih =>
    cases value with
    | null =>
      rw [navigate_null]
      exact .pure _
    | object id typeName fields identity =>
      rw [navigate_object]
      refine (env.member_follows _ segment).bind fun found => ?_
      cases found with
      | none => exact .unresolved _
      | some value => exact ih value
    | map entries =>
      rw [navigate_map]
      cases textEntry? entries segment with
      | none => exact .unresolved _
      | some value => exact ih value
    | _ => exact .unresolved _

theorem path_follows (env : Environment) (context : Context) (segments : List String) :
    Follows (env.path segments) context := by
  have hrun : ∀ root, Follows (match root with
      | (some root, rest) => env.navigate root rest
      | (none, _) => Eval.unresolved (.unresolvedMember (Expr.pathText segments) "no candidate"))
      context := by
    rintro ⟨_ | root, rest⟩
    · exact .unresolved _
    · exact env.navigate_follows root rest
  obtain ⟨result, trace, hsettles, hfails⟩ := hrun (pathRoot context segments)
  exact ⟨result, trace, fun supply => .readContext (hsettles supply), hfails⟩

end Environment

namespace Expr

variable {e left right : Expr} {op : BinaryOperator} {operand : Operand} {error : EvalError}

/-! ### Expressions that fail -/

/-- In the context the expression fails, whatever objects were made before. -/
def Fails (env : Environment) (context : Context) (e : Expr) (error : EvalError) : Prop :=
  ∀ supply, ∃ trace after, Settles (e.result env .operand) context supply
    ⟨.error (.fatal error), context, trace, after⟩

theorem Fails.resolution_eq (h : e.Fails env context error) (supply : InstanceId) :
    e.resolution env context supply = .error error := by
  obtain ⟨trace, after, hsettles⟩ := h supply
  exact resolution_of_result hsettles

/-- The paths that evaluating a condition follows, in order. Types are named, not followed. -/
def pathsFollowed : Expr → List (List String)
  | path none segments => [segments]
  | binary .is left _ | binary .isNot left _ => left.pathsFollowed
  | binary _ left right => left.pathsFollowed ++ right.pathsFollowed
  | unary _ operand => operand.pathsFollowed
  | _ => []

/-- All paths of the expression can be followed, and it comes to an operand with the property; or it
fails, because one of its paths leads to a field that cannot be loaded. -/
def Comes (env : Environment) (context : Context) (e : Expr) (P : Operand → Prop) : Prop :=
  ((∀ segments ∈ e.pathsFollowed, ∃ operand, (path none segments).Evaluates env context operand) ∧
      ∃ operand, e.Evaluates env context operand ∧ P operand) ∨
    ∃ segments ∈ e.pathsFollowed, ∃ cause,
      (path none segments).Fails env context (.fieldLoad cause) ∧
        e.Fails env context (.fieldLoad cause)

/-! ### Conditions -/

/-- What comparisons and tests of types of a condition are about. -/
inductive Simple : Expr → Prop
  | path (segments : List String) : Simple (path none segments)
  | parameter (name : String) : Simple (parameter name)
  | literal (value : Value) : Simple (literal value)

/-- A comparison of simple operands, a test of the type of one, or conditions, truth values and null
joined by logical operators. -/
inductive Condition (env : Environment) : Expr → Prop
  | boolean (b : Bool) : Condition env (literal (.boolean b))
  | null : Condition env (literal .null)
  | and {left right : Expr} (hleft : Condition env left) (hright : Condition env right) :
      Condition env (binary .and left right)
  | or {left right : Expr} (hleft : Condition env left) (hright : Condition env right) :
      Condition env (binary .or left right)
  | not {operand : Expr} (h : Condition env operand) : Condition env (unary .not operand)
  | comparison {op : BinaryOperator} {left right : Expr} (hop : op.isComparison)
      (hleft : Simple left) (hright : Simple right) : Condition env (binary op left right)
  | typeTest {op : BinaryOperator} {left type : Expr} {name : String} (hop : op = .is ∨ op = .isNot)
      (hleft : Simple left) (htype : env.typeOperand op type = .ok name) :
      Condition env (binary op left type)

/-- Whether the condition is none of those that can come to something else than a truth value: one
that is given as a literal, a disjunction, and a comparison of order. -/
def IsDecided : Expr → Prop
  | literal _ => False
  | binary op _ _ => op ≠ .or ∧ op ∉ BinaryOperator.orderings
  | _ => True

/-- The condition and all conditions that it is joined from. -/
def joined : Expr → List Expr
  | binary .and left right => binary .and left right :: (left.joined ++ right.joined)
  | binary .or left right => binary .or left right :: (left.joined ++ right.joined)
  | unary .not operand => unary .not operand :: operand.joined
  | e => [e]

end Expr

/-- A truth value, null, or nothing that could be resolved. -/
inductive Operand.IsLogical : Operand → Prop
  | ofBool (b : Bool) : IsLogical (.ofBool b)
  | null : IsLogical (.value .null)
  | unresolved : IsLogical .unresolved

/-! ### What operators make of logical operands -/

namespace BinaryOperator

variable {op : BinaryOperator} {left right : Operand}

theorem conjunction_isLogical (hleft : left.IsLogical) (hright : right.IsLogical) :
    ∃ b, conjunction left right = .ok (.ofBool b) := by
  cases hleft <;> cases hright <;> exact ⟨_, rfl⟩

theorem disjunction_isLogical (left right : Operand) : (disjunction left right).IsLogical := by
  rw [disjunction]
  split
  · exact .ofBool true
  · split
    · exact .unresolved
    · exact .ofBool false

theorem compareValues_isLogical (op : BinaryOperator) (left right : Value) :
    (op.compareValues left right).IsLogical := by
  rw [compareValues.eq_def]
  split
  · exact .ofBool _
  · exact .ofBool _
  · split
    · exact .unresolved
    · split
      · exact .ofBool _
      · exact .unresolved

theorem comparison_isLogical (op : BinaryOperator) (left right : Operand) :
    (op.comparison left right).IsLogical := by
  cases left <;> cases right <;>
    first | exact compareValues_isLogical op _ _ | exact .ofBool false

theorem exists_comparison_eq_ofBool (hop : op.isComparison) (hdecided : op ∉ orderings)
    (left right : Operand) : ∃ b, op.comparison left right = .ofBool b := by
  have heq : op = .eq ∨ op = .ne := by
    cases op <;> first | cases hop; done | simp [orderings] at hdecided ⊢
  rcases heq with rfl | rfl <;> cases left <;> cases right <;> exact ⟨_, rfl⟩

end BinaryOperator

theorem UnaryOperator.opposite_isLogical {operand : Operand} (h : operand.IsLogical) :
    ∃ b, opposite operand = .ok (.ofBool b) := by
  cases h <;> exact ⟨_, rfl⟩

namespace Expr

variable {env : Environment} {context : Context} {e left right : Expr} {op : BinaryOperator}
  {operand : Operand} {error : EvalError}

/-! ### Evaluation of conditions -/

theorem pathsFollowed_binary (h : op.evaluatesBoth) :
    (binary op left right).pathsFollowed = left.pathsFollowed ++ right.pathsFollowed := by
  cases op <;> first | rfl | cases h

theorem Fails.binary_left (hop : op.evaluatesBoth) (h : left.Fails env context error) :
    (binary op left right).Fails env context error := by
  intro supply
  obtain ⟨trace, after, hleft⟩ := h supply
  rw [result_binary hop]
  exact ⟨_, _, hleft.bothOperands_left_error⟩

theorem Fails.binary_right (hop : op.evaluatesBoth) (hleft : left.Evaluates env context operand)
    (h : right.Fails env context error) : (binary op left right).Fails env context error := by
  intro supply
  obtain ⟨trace, middle, hleft⟩ := hleft supply
  obtain ⟨trace', after, hright⟩ := h middle
  rw [result_binary hop]
  exact ⟨_, _, hleft.bothOperands_right_error hright⟩

theorem Comes.binary {P P' Q : Operand → Prop} (hop : op.evaluatesBoth)
    (hleft : left.Comes env context P) (hright : right.Comes env context P')
    (happly : ∀ l r, P l → P' r → ∃ o, op.apply l r = pure o ∧ Q o) :
    (binary op left right).Comes env context Q := by
  rw [Comes, pathsFollowed_binary hop]
  rcases hleft with ⟨hpaths, l, hleft, hl⟩ | ⟨segments, hmem, cause, hpath, hfails⟩
  · rcases hright with ⟨hpaths', r, hright, hr⟩ | ⟨segments, hmem, cause, hpath, hfails⟩
    · obtain ⟨o, happly, ho⟩ := happly l r hl hr
      refine .inl ⟨List.forall_mem_append.mpr ⟨hpaths, hpaths'⟩, o,
        hleft.binary hop hright fun supply => ⟨.empty, supply, ?_⟩, ho⟩
      rw [happly]
      exact .pure o
    · exact .inr ⟨segments, List.mem_append_right _ hmem, cause, hpath,
        hfails.binary_right hop hleft⟩
  · exact .inr ⟨segments, List.mem_append_left _ hmem, cause, hpath, hfails.binary_left hop⟩

theorem Comes.bind {part : Expr} {P Q : Operand → Prop} {next : Operand → Eval Operand}
    (hpart : part.Comes env context P)
    (hresult : e.result env .operand = part.result env .operand >>= next)
    (hpaths : e.pathsFollowed = part.pathsFollowed)
    (hnext : ∀ o, P o → ∃ o', next o = pure o' ∧ Q o') : e.Comes env context Q := by
  rw [Comes, hpaths]
  rcases hpart with ⟨hfollowed, o, hpart, ho⟩ | ⟨segments, hmem, cause, hpath, hfails⟩
  · obtain ⟨o', hnext, ho'⟩ := hnext o ho
    refine .inl ⟨hfollowed, o', fun supply => ?_, ho'⟩
    obtain ⟨trace, after, hsettles⟩ := hpart supply
    have hpure : Settles (next o) context after ⟨.ok o', context, .empty, after⟩ := by
      rw [hnext]
      exact .pure o'
    rw [hresult]
    exact ⟨_, after, hsettles.bind hpure⟩
  · refine .inr ⟨segments, hmem, cause, hpath, fun supply => ?_⟩
    obtain ⟨trace, after, hsettles⟩ := hfails supply
    rw [hresult]
    exact ⟨_, _, hsettles.bind_error⟩

theorem Evaluates.comes {P : Operand → Prop} (h : e.Evaluates env context operand)
    (hpaths : e.pathsFollowed = []) (hoperand : P operand) : e.Comes env context P := by
  refine .inl ⟨?_, operand, h, hoperand⟩
  rw [hpaths]
  simp

theorem Simple.comes (h : Simple e) : e.Comes env context fun _ => True := by
  cases h with
  | path segments =>
    rw [Comes, pathsFollowed]
    obtain ⟨result, trace, hsettles, hfails⟩ := env.path_follows context segments
    cases result with
    | ok operand =>
      have hpath : (Expr.path none segments).Evaluates env context operand :=
        fun supply => ⟨_, _, hsettles supply⟩
      exact .inl ⟨List.forall_mem_singleton.mpr ⟨operand, hpath⟩, operand, hpath, trivial⟩
    | error halt =>
      obtain ⟨cause, rfl⟩ := hfails halt rfl
      have hpath : (Expr.path none segments).Fails env context (.fieldLoad cause) :=
        fun supply => ⟨_, _, hsettles supply⟩
      exact .inr ⟨segments, List.mem_singleton_self segments, cause, hpath, hpath⟩
  | parameter name => exact (evaluates_parameter name).comes rfl trivial
  | literal value => exact (evaluates_literal value).comes rfl trivial

theorem result_typeTest {name : String} {type : Expr} (hop : op = .is ∨ op = .isNot)
    (htype : env.typeOperand op type = .ok name) :
    (binary op left type).result env .operand = left.result env .operand >>= fun operand =>
      pure (.ofBool (env.isInstance operand name == (op == .is))) := by
  rcases hop with rfl | rfl <;> rw [result, operandOf_eq, htype] <;> rfl

/-- An operand that a logical operator takes, and a truth value if the condition is decided. -/
def Condition.Result (e : Expr) (operand : Operand) : Prop :=
  operand.IsLogical ∧ (e.IsDecided → ∃ b, operand = .ofBool b)

theorem Condition.comes (h : e.Condition env) (context : Context) :
    e.Comes env context (Condition.Result e) := by
  induction h with
  | boolean b => exact (evaluates_literal _).comes rfl ⟨.ofBool b, fun h => absurd h id⟩
  | null => exact (evaluates_literal _).comes rfl ⟨.null, fun h => absurd h id⟩
  | and hleft hright ihleft ihright =>
    refine ihleft.binary rfl ihright fun l r hl hr => ?_
    obtain ⟨b, hb⟩ := BinaryOperator.conjunction_isLogical hl.1 hr.1
    have happly : BinaryOperator.and.apply l r = Eval.ofExcept (.ok (.ofBool b)) :=
      congrArg Eval.ofExcept hb
    exact ⟨.ofBool b, happly, .ofBool b, fun _ => ⟨b, rfl⟩⟩
  | or hleft hright ihleft ihright =>
    refine ihleft.binary rfl ihright fun l r hl hr => ⟨_, rfl, ?_⟩
    exact ⟨BinaryOperator.disjunction_isLogical l r, fun h => absurd rfl h.1⟩
  | not h ih =>
    refine ih.bind (result_unary .not _) rfl fun o ho => ?_
    obtain ⟨b, hb⟩ := UnaryOperator.opposite_isLogical ho.1
    have happly : Eval.ofExcept (UnaryOperator.not.apply o) = Eval.ofExcept (.ok (.ofBool b)) :=
      congrArg Eval.ofExcept hb
    exact ⟨.ofBool b, happly, .ofBool b, fun _ => ⟨b, rfl⟩⟩
  | @comparison op left right hop hleft hright =>
    refine hleft.comes.binary (BinaryOperator.evaluatesBoth_of_isComparison hop) hright.comes
      fun l r _ _ => ?_
    refine ⟨op.comparison l r, ?_, op.comparison_isLogical l r, fun h => ?_⟩
    · cases op <;> first | rfl | cases hop
    · exact BinaryOperator.exists_comparison_eq_ofBool hop h.2 l r
  | @typeTest op left type name hop hleft htype =>
    refine hleft.comes.bind (result_typeTest hop htype) ?_ fun o _ =>
      ⟨_, rfl, .ofBool _, fun _ => ⟨_, rfl⟩⟩
    rcases hop with rfl | rfl <;> rfl

theorem Condition.of_mem_joined (h : e.Condition env) {part : Expr} (hpart : part ∈ e.joined) :
    part.Condition env ∧ part.pathsFollowed ⊆ e.pathsFollowed := by
  induction h with
  | boolean b =>
    obtain rfl := List.mem_singleton.mp hpart
    exact ⟨.boolean b, List.Subset.refl _⟩
  | null =>
    obtain rfl := List.mem_singleton.mp hpart
    exact ⟨.null, List.Subset.refl _⟩
  | and hleft hright ihleft ihright =>
    rcases List.mem_cons.mp hpart with rfl | hpart
    · exact ⟨.and hleft hright, List.Subset.refl _⟩
    · rcases List.mem_append.mp hpart with hpart | hpart
      · exact ⟨(ihleft hpart).1, List.subset_append_of_subset_left _ (ihleft hpart).2⟩
      · exact ⟨(ihright hpart).1, List.subset_append_of_subset_right _ (ihright hpart).2⟩
  | or hleft hright ihleft ihright =>
    rcases List.mem_cons.mp hpart with rfl | hpart
    · exact ⟨.or hleft hright, List.Subset.refl _⟩
    · rcases List.mem_append.mp hpart with hpart | hpart
      · exact ⟨(ihleft hpart).1, List.subset_append_of_subset_left _ (ihleft hpart).2⟩
      · exact ⟨(ihright hpart).1, List.subset_append_of_subset_right _ (ihright hpart).2⟩
  | not h ih =>
    rcases List.mem_cons.mp hpart with rfl | hpart
    · exact ⟨.not h, List.Subset.refl _⟩
    · exact ih hpart
  | @comparison op left right hop hleft hright =>
    have hself : (binary op left right).joined = [binary op left right] := by
      cases op <;> first | rfl | cases hop
    obtain rfl := List.mem_singleton.mp (hself ▸ hpart)
    exact ⟨.comparison hop hleft hright, List.Subset.refl _⟩
  | @typeTest op left type name hop hleft htype =>
    have hself : (binary op left type).joined = [binary op left type] := by
      rcases hop with rfl | rfl <;> rfl
    obtain rfl := List.mem_singleton.mp (hself ▸ hpart)
    exact ⟨.typeTest hop hleft htype, List.Subset.refl _⟩

/-- If no path of a condition leads to a field that cannot be loaded, the condition and all that it
is joined from come to truth values, null or nothing, and the decided ones to truth values. It fails
exactly if there is such a path. -/
theorem condition_evaluates (h : e.Condition env) (context : Context) :
    ((∀ segments ∈ e.pathsFollowed, ∀ cause,
        ¬ (path none segments).Fails env context (.fieldLoad cause)) →
      ∀ part ∈ e.joined, ∃ operand, part.Evaluates env context operand ∧ operand.IsLogical ∧
        (part.IsDecided → ∃ b, operand = .ofBool b)) ∧
    ((∃ supply error, e.resolution env context supply = .error error) ↔
      ∃ segments ∈ e.pathsFollowed, ∃ cause,
        (path none segments).Fails env context (.fieldLoad cause)) := by
  refine ⟨fun hloads part hpart => ?_, ?_, ?_⟩
  · obtain ⟨hcondition, hsubset⟩ := h.of_mem_joined hpart
    rcases hcondition.comes context with ⟨-, hevaluates⟩ | ⟨segments, hmem, cause, hpath, -⟩
    · exact hevaluates
    · exact absurd hpath (hloads segments (hsubset hmem) cause)
  · rintro ⟨supply, error, herror⟩
    rcases h.comes context with ⟨-, operand, hevaluates, -⟩ | ⟨segments, hmem, cause, hpath, -⟩
    · cases (hevaluates.resolution_eq supply).symm.trans herror
    · exact ⟨segments, hmem, cause, hpath⟩
  · rintro ⟨segments, hmem, cause, hpath⟩
    rcases h.comes context with ⟨hpaths, -⟩ | ⟨-, -, cause, -, hfails⟩
    · obtain ⟨operand, hevaluates⟩ := hpaths segments hmem
      cases (hevaluates.resolution_eq default).symm.trans (hpath.resolution_eq default)
    · exact ⟨default, .fieldLoad cause, hfails.resolution_eq default⟩

/-- Whether an age that is given as a text is below thirty cannot be resolved, but the conjunction
with it comes to a truth value. -/
theorem condition_evaluates_textAge :
    let env : Environment := ⟨.empty, .builtin, .detached⟩
    let context : Context :=
      ⟨"this", [], [("this", .map [(.string "age", .string "old")])], [], none⟩
    let young := binary .lt (path none ["age"]) (literal (.int 30))
    let e := binary .and young (unary .not (isType (path none ["this"]) "String"))
    e.Condition env ∧ (∀ segments ∈ e.pathsFollowed, ∀ cause,
        ¬ (path none segments).Fails env context (.fieldLoad cause)) ∧
      young.Evaluates env context .unresolved ∧ ∃ b, e.Evaluates env context (.ofBool b) := by
  intro env context young e
  have hregistry : env.registry.EvaluatesArguments :=
    inferInstanceAs (Registry.builtin.EvaluatesArguments)
  have hcondition : e.Condition env :=
    .and (.comparison rfl (.path _) (.literal _)) (.not (.typeTest (.inl rfl) (.path _) rfl))
  have hage : (path none ["age"]).Evaluates env context (.value (.string "old")) :=
    evaluates_iff.mpr fun _ => rfl
  have hself : (path none ["this"]).Evaluates env context
      (.value (.map [(.string "age", .string "old")])) := evaluates_iff.mpr fun _ => rfl
  have hloads : ∀ segments ∈ e.pathsFollowed, ∀ cause,
      ¬ (path none segments).Fails env context (.fieldLoad cause) := by
    intro segments hmem cause hfails
    have hcases : segments = ["age"] ∨ segments = ["this"] := by
      simpa [e, young, isType, pathsFollowed] using hmem
    rcases hcases with rfl | rfl
    · cases (hage.resolution_eq default).symm.trans (hfails.resolution_eq default)
    · cases (hself.resolution_eq default).symm.trans (hfails.resolution_eq default)
  obtain ⟨operand, hevaluates, -, hdecided⟩ :=
    (condition_evaluates hcondition context).1 hloads e (List.mem_cons_self ..)
  obtain ⟨b, rfl⟩ := hdecided ⟨by decide, by decide⟩
  exact ⟨hcondition, hloads, evaluates_iff.mpr fun _ => rfl, b, hevaluates⟩

end Expr

end ObjectQuery
