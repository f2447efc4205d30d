import ObjectQuery.Proofs.Json.Members
import ObjectQuery.Proofs.Method.Agreement

/-!
Operators, paths, casts, calls and new objects agree with themselves on renamed operands.
-/

namespace ObjectQuery

variable {A : Agreement} {context context' : Context}

open Agreement

/-! ### Operators -/

namespace BinaryOperator

theorem logical_rename (ρ : InstanceId → InstanceId) (op : BinaryOperator) (operand : Operand) :
    op.logical (operand.rename ρ) = op.logical operand := by
  cases operand with
  | value value => cases value <;> rfl
  | unresolved => rfl

theorem conjunction_rename (ρ : InstanceId → InstanceId) (left right : Operand) :
    conjunction (left.rename ρ) (right.rename ρ) = (conjunction left right).map (.rename ρ) := by
  simp only [conjunction, Operand.isUnresolved_rename, logical_rename]
  split
  · rfl
  · cases logical .and left with
    | error error => rfl
    | ok l => cases logical .and right <;> rfl

theorem disjunction_rename (ρ : InstanceId → InstanceId) (left right : Operand) :
    disjunction (left.rename ρ) (right.rename ρ) = (disjunction left right).rename ρ := by
  simp only [disjunction, Operand.isTrue_rename, Operand.isUnresolved_rename]
  split
  · rfl
  · split <;> rfl

theorem compareValues_rename {ρ : InstanceId → InstanceId} (hρ : Function.Injective ρ)
    (op : BinaryOperator) (left right : Value) :
    op.compareValues (left.rename ρ) (right.rename ρ) =
      (op.compareValues left right).rename ρ := by
  cases op with
  | eq | ne => simp only [compareValues, Value.looseEq_rename hρ, Operand.rename_ofBool]
  | _ =>
    simp only [compareValues, Value.isNull_rename, Value.compare?_rename]
    split
    · rfl
    · split <;> rfl

theorem comparison_rename {ρ : InstanceId → InstanceId} (hρ : Function.Injective ρ)
    (op : BinaryOperator) (left right : Operand) :
    op.comparison (left.rename ρ) (right.rename ρ) = (op.comparison left right).rename ρ := by
  cases left with
  | unresolved => rfl
  | value l =>
    cases right with
    | unresolved => rfl
    | value r => exact compareValues_rename hρ op l r

theorem likeness_mirrors (left right : Operand) :
    A.Mirrors context context' (Operand.rename A.rename) (likeness left right)
      (likeness (left.rename A.rename) (right.rename A.rename)) := by
  cases left with
  | unresolved => exact Mirrors.pure rfl
  | value l =>
    cases right with
    | unresolved => cases l <;> exact Mirrors.pure rfl
    | value r =>
      cases l with
      | null => exact Mirrors.pure rfl
      | string text =>
        cases r with
        | string pattern => exact (matchesWhole_mirrors pattern text).bind fun _ => Mirrors.pure rfl
        | _ => exact Mirrors.fail _
      | _ => exact Mirrors.fail _

theorem isString_rename (ρ : InstanceId → InstanceId) (value : Value) :
    isString (value.rename ρ) = isString value := by
  cases value <;> rfl

theorem applyArithmetic_rename (ρ : InstanceId → InstanceId) (arithmetic : Value.Arithmetic)
    (left right : Value) :
    Value.applyArithmetic arithmetic (left.rename ρ) (right.rename ρ) =
      Value.applyArithmetic arithmetic left right := by
  simp only [Value.applyArithmetic, Value.quotient, Value.finiteDouble, Value.finiteDecimal,
    Value.toDouble?_rename, Value.toDecimal?_rename]

theorem isNumeric_of_applyArithmetic {arithmetic : Value.Arithmetic} {left right value : Value}
    (h : Value.applyArithmetic arithmetic left right = .ok value) : value.isNumeric := by
  cases arithmetic with
  | add | sub | mul =>
    simp only [Value.applyArithmetic] at h
    cases hl : Value.finiteDecimal left <;> cases hr : Value.finiteDecimal right <;>
      simp [hl, hr, Bind.bind, Except.bind, pure, Except.pure] at h
    rw [← h]
    rfl
  | div =>
    simp only [Value.applyArithmetic, Value.quotient] at h
    cases hl : Value.finiteDouble left <;> cases hr : Value.finiteDouble right <;>
      simp [hl, hr, Bind.bind, Except.bind, pure, Except.pure, throw, throwThe,
        MonadExceptOf.throw] at h
    split at h
    · simp at h
    · split at h
      · rw [← Except.ok.inj h]
        rfl
      · simp at h
  | mod =>
    simp only [Value.applyArithmetic] at h
    cases hl : Value.finiteDecimal left <;> cases hr : Value.finiteDecimal right <;>
      simp [hl, hr, Bind.bind, Except.bind, pure, Except.pure, throw, throwThe,
        MonadExceptOf.throw] at h
    split at h
    · simp at h
    · rw [← Except.ok.inj h]
      rfl

theorem compute_mirrors (op : BinaryOperator) (arithmetic : Value.Arithmetic)
    (left right : Value) :
    A.Mirrors context context' (Operand.rename A.rename) (op.compute arithmetic left right)
      (op.compute arithmetic (left.rename A.rename) (right.rename A.rename)) := by
  simp only [compute, Value.isNull_rename, isString_rename, Value.toText_rename,
    Value.isNumeric_rename, applyArithmetic_rename, wrongOperand, Value.describeType_rename]
  split
  · exact Mirrors.pure rfl
  · split
    · exact Mirrors.pure rfl
    · split
      · exact Mirrors.fail _
      · split
        · exact Mirrors.fail _
        · split
          · rename_i value happly
            have hvalue := Value.rename_of_isNumeric A.rename (isNumeric_of_applyArithmetic happly)
            exact Mirrors.pure (by simp [Operand.rename, hvalue])
          · exact Mirrors.unresolved _

theorem apply_mirrors (op : BinaryOperator) (left right : Operand) :
    A.Mirrors context context' (Operand.rename A.rename) (op.apply left right)
      (op.apply (left.rename A.rename) (right.rename A.rename)) := by
  cases op with
  | and => exact Mirrors.ofExcept (conjunction_rename A.rename left right)
  | or => exact Mirrors.pure (disjunction_rename A.rename left right)
  | eq | ne | lt | le | gt | ge =>
    exact Mirrors.pure (comparison_rename A.injective _ left right)
  | like => exact likeness_mirrors left right
  | add | sub | mul | div | mod =>
    cases left with
    | unresolved => exact Mirrors.pure rfl
    | value l =>
      cases right with
      | unresolved => exact Mirrors.pure rfl
      | value r => exact compute_mirrors _ _ l r
  | is | isNot | cast => exact Mirrors.fail _

end BinaryOperator

theorem UnaryOperator.apply_rename (ρ : InstanceId → InstanceId) (op : UnaryOperator)
    (operand : Operand) :
    op.apply (operand.rename ρ) = (op.apply operand).map (.rename ρ) := by
  cases op with
  | not =>
    cases operand with
    | unresolved => rfl
    | value value => cases value <;> rfl
  | neg =>
    cases operand with
    | unresolved => rfl
    | value value => cases value <;> rfl
  | com =>
    cases operand with
    | unresolved => rfl
    | value value => cases value <;> rfl
  | distinct => rfl

/-! ### Paths, types and calls -/

/-- The object with all its instances renamed. -/
def Object.rename (ρ : InstanceId → InstanceId) (object : Object) : Object :=
  ⟨ρ object.id, object.typeName, object.fields.map fun field => (field.1, field.2.rename ρ),
    object.identity.map (.rename ρ)⟩

theorem Object.toValue_rename (ρ : InstanceId → InstanceId) (object : Object) :
    (object.rename ρ).toValue = object.toValue.rename ρ := by
  simp [rename, toValue, Value.rename]

theorem Bindings.insert_map {α β : Type} (f : α → β) (bindings : Bindings α) (name : String)
    (value : α) :
    insert (bindings.map fun binding => (binding.1, f binding.2)) name (f value) =
      (insert bindings name value).map fun binding => (binding.1, f binding.2) := by
  induction bindings with
  | nil => rfl
  | cons binding rest ih =>
    simp only [List.map_cons, insert]
    split
    · rfl
    · simp [ih]

theorem Object.setField_rename (ρ : InstanceId → InstanceId) (object : Object) (name : String)
    (value : Value) :
    (object.rename ρ).setField name (value.rename ρ) = (object.setField name value).rename ρ := by
  simp [rename, setField, Bindings.insert_map]

namespace FieldAccess

theorem fieldIndex?_rename (ρ : InstanceId → InstanceId) (access : FieldAccess) (object : Object)
    (member : String) :
    access.fieldIndex? (object.rename ρ) member = access.fieldIndex? object member := by
  cases access with
  | detached => rfl
  | stored store =>
    rcases object with ⟨id, typeName, fields, identity⟩
    cases identity <;> rfl

theorem fetch_rename (ρ : InstanceId → InstanceId) (access : FieldAccess) (object : Object)
    (index : Nat) : access.fetch (object.rename ρ) index = access.fetch object index := by
  cases access with
  | detached => rfl
  | stored store =>
    rcases object with ⟨id, typeName, fields, identity⟩
    cases identity <;> simp [fetch, ObjectStore.fetch, Object.rename]

end FieldAccess

namespace Catalog

theorem isInstance_rename (ρ : InstanceId → InstanceId) (catalog : Catalog) (value : Value)
    (typeName : String) :
    catalog.isInstance (value.rename ρ) typeName = catalog.isInstance value typeName := by
  simp [isInstance]

theorem accepts_rename (ρ : InstanceId → InstanceId) (catalog : Catalog) (typeName : String)
    (value : Value) :
    catalog.accepts typeName (value.rename ρ) = catalog.accepts typeName value := by
  simp [accepts, isInstance_rename]

theorem acceptsAll_rename (ρ : InstanceId → InstanceId) (catalog : Catalog) (c : Constructor)
    (args : List Value) :
    catalog.acceptsAll c (args.map (.rename ρ)) = catalog.acceptsAll c args := by
  simp [acceptsAll, List.zip_map_right, Function.comp_def, accepts_rename]

theorem constructor?_rename (ρ : InstanceId → InstanceId) (catalog : Catalog) (typeName : String)
    (args : List Value) :
    catalog.constructor? typeName (args.map (.rename ρ)) = catalog.constructor? typeName args := by
  simp [constructor?, acceptsAll_rename]

end Catalog

theorem Constructor.build_rename (ρ : InstanceId → InstanceId) (c : Constructor) (id : InstanceId)
    (typeName : String) (args : List Value) :
    c.build (ρ id) typeName (args.map (.rename ρ)) = (c.build id typeName args).rename ρ := by
  have hfold : ∀ (pairs : List (ConstructorParam × Value)) (object : Object),
      (pairs.map fun pair => (pair.1, pair.2.rename ρ)).foldl
          (fun object pair => object.setField pair.1.field pair.2) (object.rename ρ) =
        (pairs.foldl (fun object pair => object.setField pair.1.field pair.2) object).rename
          ρ := by
    intro pairs
    induction pairs with
    | nil => exact fun _ => rfl
    | cons pair rest ih =>
      intro object
      simp only [List.map_cons, List.foldl_cons, Object.setField_rename, ih]
  simp only [build, List.zip_map_right]
  exact hfold _ ⟨id, typeName, [], none⟩

theorem Registry.respects_builtin (ρ : InstanceId → InstanceId) :
    builtin.Every (Method.Respects ρ) :=
  every_builtin (by simp [builtinEntries, Method.Respects, or_imp, forall_and])

/-- No object that is renamed can be loaded from a field. -/
def FieldAccess.Respects (access : FieldAccess) (ρ : InstanceId → InstanceId) : Prop :=
  ∀ object index value, access.fetch object index = .ok value → value.rename ρ = value

theorem FieldAccess.respects_id (access : FieldAccess) : access.Respects id :=
  fun _ _ value _ => value.rename_id

namespace Environment

/-- What evaluations read does not depend on the names of instances, nor hold renamed ones. -/
structure Respects (env : Environment) (ρ : InstanceId → InstanceId) : Prop where
  loads : env.access.Respects ρ
  functions : ∀ name method, env.registry.function? name = some method → method.Respects ρ
  methods : ∀ type name method, env.registry.ownMethod? type name = some method →
    method.Respects ρ

theorem Respects.refl (env : Environment) [h : env.registry.EvaluatesArguments] :
    env.Respects id where
  loads := env.access.respects_id
  functions name method hmethod := (h.every.functions name method hmethod).respects_id
  methods type name method hmethod := (h.every.methods type name method hmethod).respects_id

theorem Respects.every {env : Environment} {ρ : InstanceId → InstanceId} (h : env.Respects ρ) :
    env.registry.Every (Method.Respects ρ) := ⟨h.functions, h.methods⟩

theorem Respects.evaluatesArguments {env : Environment} {ρ : InstanceId → InstanceId}
    (h : env.Respects ρ) : env.registry.EvaluatesArguments :=
  ⟨h.every.imp fun _ => Method.Respects.evaluatesArguments⟩

variable {env : Environment}

section Loads

variable (hloads : env.access.Respects A.rename)
include hloads

theorem load_mirrors (object : Object) (index : Nat) :
    A.Mirrors context context' (Value.rename A.rename) (Eval.load env.access object index)
      (Eval.load env.access (object.rename A.rename) index) := by
  rw [Eval.load, Eval.load, FieldAccess.fetch_rename]
  cases hfetch : env.access.fetch object index with
  | error cause => exact Mirrors.fail _
  | ok value => exact Mirrors.countLoad (hloads object index value hfetch)

theorem member_mirrors (object : Object) (name : String) :
    A.Mirrors context context' (Option.map (Value.rename A.rename)) (env.member object name)
      (env.member (object.rename A.rename) name) := by
  rw [member, member, FieldAccess.fieldIndex?_rename]
  cases env.access.fieldIndex? object name with
  | some index => exact (load_mirrors hloads object index).bind fun _ => Mirrors.pure rfl
  | none => exact Mirrors.pure (Bindings.get?_map _ _ _)

omit hloads in
theorem textEntry?_rename (entries : List (Value × Value)) (key : String) :
    textEntry? (entries.map fun entry => (entry.1.rename A.rename, entry.2.rename A.rename)) key =
      ( textEntry? entries key).map (.rename A.rename) := by
  simp [ textEntry?, List.find?_map, Function.comp_def]

theorem navigate_mirrors (value : Value) (segments : List String) :
    A.Mirrors context context' (Operand.rename A.rename) (env.navigate value segments)
      (env.navigate (value.rename A.rename) segments) := by
  induction segments generalizing value with
  | nil => cases value <;> exact Mirrors.pure rfl
  | cons segment rest ih =>
    cases value with
    | null => exact Mirrors.pure rfl
    | object id typeName fields identity =>
      simp only [Value.rename, navigate, Value.renameFields_eq_map, Value.renameOption_eq_map]
      refine (member_mirrors hloads ⟨id, typeName, fields, identity⟩ segment).bind fun found => ?_
      cases found with
      | some value => exact ih value
      | none => exact Mirrors.unresolved _
    | map entries =>
      simp only [Value.rename, navigate, Value.renameEntries_eq_map, textEntry?_rename]
      cases textEntry? entries segment with
      | some value => exact ih value
      | none => exact Mirrors.unresolved _
    | _ => exact Mirrors.unresolved _

omit hloads in
theorem pathRoot_rename (hc : A.Contexts context context') (segments : List String) :
    pathRoot context' segments =
      ((pathRoot context segments).1.map (.rename A.rename), (pathRoot context segments).2) := by
  cases segments with
  | nil => simp [pathRoot, hc.candidate?]
  | cons first rest =>
    simp only [pathRoot, hc.candidateName, hc.candidate?, hc.state]
    split
    · rfl
    · cases context.state.get? first <;> rfl

theorem path_mirrors (hc : A.Contexts context context') (segments : List String) :
    A.Mirrors context context' (Operand.rename A.rename) (env.path segments)
      (env.path segments) := by
  refine Mirrors.readContext ?_
  rw [pathRoot_rename hc]
  rcases pathRoot context segments with ⟨root, rest⟩
  cases root with
  | none => exact Mirrors.unresolved _
  | some root => exact navigate_mirrors hloads root rest

theorem pathFrom_mirrors (root : Operand) (segments : List String) :
    A.Mirrors context context' (Operand.rename A.rename) (env.pathFrom root segments)
      (env.pathFrom (root.rename A.rename) segments) := by
  cases root with
  | value value => exact navigate_mirrors hloads value segments
  | unresolved => exact Mirrors.pure rfl

end Loads

theorem isInstance_rename (operand : Operand) (typeName : String) :
    env.isInstance (operand.rename A.rename) typeName = env.isInstance operand typeName := by
  cases operand with
  | value value => exact env.catalog.isInstance_rename A.rename value typeName
  | unresolved => rfl

theorem castTo_mirrors (target : String) (source : Operand) :
    A.Mirrors context context' (Operand.rename A.rename) (env.castTo target source)
      (env.castTo target (source.rename A.rename)) := by
  cases source with
  | unresolved => exact Mirrors.pure rfl
  | value value =>
    simp only [Operand.rename, castTo, Value.isNull_rename, Catalog.isInstance_rename,
      Value.describeType_rename]
    split
    · exact Mirrors.pure rfl
    · exact Mirrors.unresolved _

variable (henv : env.Respects A.rename)
include henv

theorem callFunction_mirrors (call : Call) (hc : A.Contexts context context')
    (hargs : ∀ argument ∈ call.args, A.Passes context context' argument) :
    A.Mirrors context context' (Operand.rename A.rename) (env.callFunction call)
      (env.callFunction call) := by
  rw [callFunction]
  cases hmethod : env.registry.function? call.name with
  | none => exact Mirrors.unresolved _
  | some method =>
    exact Method.evaluate_mirrors (henv.functions call.name method hmethod) call .null hc hargs

theorem callMethod_mirrors (receiver : Value) (call : Call)
    (hc : A.Contexts context context')
    (hargs : ∀ argument ∈ call.args, A.Passes context context' argument) :
    A.Mirrors context context' (Operand.rename A.rename) (env.callMethod receiver call)
      (env.callMethod (receiver.rename A.rename) call) := by
  have htype : env.receiverType? (receiver.rename A.rename) call.declared =
      env.receiverType? receiver call.declared := by
    cases receiver <;> rfl
  simp only [callMethod, htype, Value.isNull_rename]
  cases hmethod : env.methodFor? (env.receiverType? receiver call.declared) call.name with
  | none => exact Mirrors.unresolved _
  | some method =>
    have hrespects := henv.every.methodFor? hmethod
    simp only
    split
    · exact Mirrors.pure (by simp [Operand.rename, Method.nullDefault_rename hrespects])
    · exact Method.evaluate_mirrors hrespects call receiver hc hargs

omit henv in
theorem allValues_rename (operands : List Operand) :
    allValues (operands.map (.rename A.rename)) =
      (allValues operands).map (List.map (.rename A.rename)) := by
  induction operands with
  | nil => rfl
  | cons operand rest ih =>
    cases operand with
    | unresolved => rfl
    | value value =>
      simp only [List.map_cons, Operand.rename, allValues, ih]
      cases allValues rest <;> rfl

omit henv in
theorem create_mirrors (typeName : String) (args : List Value) :
    A.Mirrors context context' (Operand.rename A.rename) (env.create typeName args)
      (env.create typeName (args.map (.rename A.rename))) := by
  have htypes : (args.map (.rename A.rename)).map Value.describeType =
      args.map Value.describeType := by
    simp [Function.comp_def]
  simp only [create, Catalog.constructor?_rename, htypes]
  cases env.catalog.resolve? typeName with
  | none => exact Mirrors.fail _
  | some full =>
    simp only
    cases env.catalog.constructor? full args with
    | none => exact Mirrors.fail _
    | some c =>
      refine Mirrors.fresh.bind fun id => Mirrors.pure ?_
      rw [Constructor.build_rename, Object.toValue_rename]
      rfl

end Environment

end ObjectQuery
