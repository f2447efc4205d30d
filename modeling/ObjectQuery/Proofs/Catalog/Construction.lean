import ObjectQuery.Proofs.Catalog.Naming

/-!
Which constructor of a type makes an object of arguments, and what the object holds. Main
statements: the first constructor whose parameters all take the arguments makes it, also where
ancestries are remembered; and a field holds the argument of the last parameter that has it.
-/

namespace ObjectQuery

/-! ### Parameters that take arguments -/

namespace Catalog

variable {catalog : Catalog} {known : String → List String} {args : List Value}
  {constructors : List Constructor} {c : Constructor}

/-- By what is known of ancestries, null may stand for a parameter of any type, an instance of the
type, and any number if the type is one of numbers. -/
def Takes (catalog : Catalog) (known : String → List String) (typeName : String) (arg : Value) :
    Prop :=
  arg.isNull ∨ (∃ type ∈ arg.typeName?, catalog.resolveOrSelf typeName ∈ known type) ∨
    (arg.isNumeric ∧ ∃ full ∈ catalog.resolve? typeName, "Number" ∈ known full)

instance (typeName : String) (arg : Value) : Decidable (catalog.Takes known typeName arg) :=
  inferInstanceAs (Decidable (_ ∨ _ ∨ _))

/-- A constructor has a parameter for each argument, and each takes its argument. -/
def Fits (catalog : Catalog) (known : String → List String) (args : List Value) (c : Constructor) :
    Prop :=
  c.params.length = args.length ∧
    ∀ pair ∈ c.params.zip args, catalog.Takes known pair.1.typeName pair.2

instance (c : Constructor) : Decidable (catalog.Fits known args c) :=
  inferInstanceAs (Decidable (_ ∧ _))

/-- The first constructor, in the order in which they are declared, that fits. -/
def IsFirstFit (catalog : Catalog) (known : String → List String) (args : List Value)
    (constructors : List Constructor) (c : Constructor) : Prop :=
  ∃ before after, constructors = before ++ c :: after ∧ catalog.Fits known args c ∧
    ∀ earlier ∈ before, ¬ catalog.Fits known args earlier

def firstFit? (catalog : Catalog) (known : String → List String) (args : List Value)
    (constructors : List Constructor) : Option Constructor :=
  constructors.find? fun c => catalog.Fits known args c

theorem firstFit?_eq_some_iff : catalog.firstFit? known args constructors = some c ↔
    catalog.IsFirstFit known args constructors c := by
  rw [firstFit?, List.find?_eq_some_iff_append]
  constructor
  · rintro ⟨hfits, before, after, hsplit, hbefore⟩
    exact ⟨before, after, hsplit, by simpa using hfits, by simpa using hbefore⟩
  · rintro ⟨before, after, hsplit, hfits, hbefore⟩
    exact ⟨by simpa using hfits, before, after, hsplit, by simpa using hbefore⟩

theorem firstFit?_isSome_iff : (catalog.firstFit? known args constructors).isSome ↔
    ∃ c ∈ constructors, catalog.Fits known args c := by
  simp [firstFit?, List.find?_isSome]

theorem resolveOrSelf_number (catalog : Catalog) : catalog.resolveOrSelf "Number" = "Number" := by
  have hknown : catalog.isKnown "Number" := by
    have hbuiltin : (builtinSupertypes? "Number").isSome := by decide
    rw [isKnown, hbuiltin, Bool.or_true]
  rw [resolveOrSelf, resolve?_of_isKnown hknown, Option.getD_some]

theorem accepts_iff (typeName : String) (arg : Value) :
    catalog.accepts typeName arg ↔ catalog.Takes catalog.ancestry typeName arg := by
  unfold accepts isInstance Takes
  cases arg.typeName? <;> cases catalog.resolve? typeName <;>
    simp [isAssignable, resolveOrSelf_number, or_assoc]

theorem acceptsAll_iff (args : List Value) (c : Constructor) :
    catalog.acceptsAll c args ↔ catalog.Fits catalog.ancestry args c := by
  unfold acceptsAll Fits
  simp only [Constructor.arity, Bool.and_eq_true, beq_iff_eq, List.all_eq_true, accepts_iff]

end Catalog

/-! ### Ancestries that are remembered -/

namespace MemoCatalog

theorem known_recalling (memo : MemoCatalog) (name : String) :
    (memo.recalling name).known = memo.known := by
  funext other
  rw [known, chains_recalling]
  split
  · rename_i hname
    rw [← hname, Option.getD_some]
  · rfl

/-- By what is known of ancestries a query comes to a result, and nothing else is known after it. -/
def Yields {α : Type} (query : Query α) (catalog : Catalog) (known : String → List String)
    (result : α) : Prop :=
  ∀ memo : MemoCatalog, memo.catalog = catalog → memo.known = known →
    ∃ after, query.run memo = (result, after) ∧ after.catalog = catalog ∧ after.known = known

namespace Yields

variable {α β : Type} {catalog : Catalog} {known : String → List String}

theorem pure (a : α) : Yields (Pure.pure a) catalog known a :=
  fun memo hcatalog hknown => ⟨memo, rfl, hcatalog, hknown⟩

theorem bind {query : Query α} {next : α → Query β} {a : α} {b : β}
    (h : Yields query catalog known a) (hnext : Yields (next a) catalog known b) :
    Yields (query >>= next) catalog known b := by
  intro memo hcatalog hknown
  obtain ⟨middle, hrun, hcatalog, hknown⟩ := h memo hcatalog hknown
  obtain ⟨after, hrun', hafter⟩ := hnext middle hcatalog hknown
  exact ⟨after, by rw [StateT.run_bind, hrun]; exact hrun', hafter⟩

theorem get {next : MemoCatalog → Query β} {b : β}
    (h : ∀ memo : MemoCatalog, memo.catalog = catalog → Yields (next memo) catalog known b) :
    Yields (MonadState.get >>= next) catalog known b := by
  intro memo hcatalog hknown
  exact h memo hcatalog memo hcatalog hknown

end Yields

variable {catalog : Catalog} {known : String → List String}

theorem ancestry_yields (name : String) : Yields (ancestry name) catalog known (known name) := by
  rintro memo rfl rfl
  exact ⟨memo.recalling name, run_ancestry name memo, rfl, memo.known_recalling name⟩

theorem isAssignable_yields (source target : String) :
    Yields (isAssignable source target) catalog known
      ((known source).contains (catalog.resolveOrSelf target)) := by
  refine (ancestry_yields source).bind (.get fun memo hmemo => ?_)
  rw [hmemo]
  exact .pure _

/-- By what is known of ancestries a query tells whether something holds. -/
def Decides (query : Query Bool) (catalog : Catalog) (known : String → List String) (p : Prop) :
    Prop :=
  ∃ holds : Bool, Yields query catalog known holds ∧ (holds ↔ p)

theorem isInstance_decides (value : Value) (typeName : String) :
    Decides (isInstance value typeName) catalog known
      (∃ type ∈ value.typeName?, catalog.resolveOrSelf typeName ∈ known type) := by
  rw [isInstance]
  cases value.typeName? with
  | none => exact ⟨false, .pure false, by simp⟩
  | some actual => exact ⟨_, isAssignable_yields actual typeName, by simp⟩

theorem accepts_decides (typeName : String) (value : Value) :
    Decides (accepts typeName value) catalog known (catalog.Takes known typeName value) := by
  unfold accepts Catalog.Takes
  cases value.isNull with
  | true => exact ⟨true, .pure true, by simp⟩
  | false =>
    obtain ⟨holds, hyields, hinstance⟩ : Decides (isInstance value typeName) catalog known _ :=
      isInstance_decides value typeName
    rw [← hinstance]
    cases holds with
    | true => exact ⟨true, hyields.bind (.pure true), by simp⟩
    | false =>
      cases value.isNumeric with
      | false => exact ⟨false, hyields.bind (.pure false), by simp⟩
      | true =>
        cases hresolve : catalog.resolve? typeName with
        | none =>
          refine ⟨false, hyields.bind (.get fun memo hmemo => ?_), by simp⟩
          rw [hmemo, hresolve]
          exact .pure false
        | some full =>
          have hassignable : Yields (isAssignable full "Number") catalog known
              ((known full).contains "Number") := by
            simpa only [Catalog.resolveOrSelf_number] using isAssignable_yields full "Number"
          refine ⟨(known full).contains "Number", hyields.bind (.get fun memo hmemo => ?_), by simp⟩
          rw [hmemo, hresolve]
          exact hassignable

theorem acceptsEach_decides (pairs : List (ConstructorParam × Value)) :
    Decides (acceptsEach pairs) catalog known
      (∀ pair ∈ pairs, catalog.Takes known pair.1.typeName pair.2) := by
  induction pairs with
  | nil => exact ⟨true, .pure true, by simp⟩
  | cons pair rest ih =>
    obtain ⟨param, arg⟩ := pair
    obtain ⟨takes, hyields, htakes⟩ : Decides (accepts param.typeName arg) catalog known _ :=
      accepts_decides param.typeName arg
    rw [List.forall_mem_cons, ← htakes]
    cases takes with
    | true =>
      obtain ⟨each, hrest, heach⟩ := ih
      exact ⟨each, hyields.bind hrest, by simpa using heach⟩
    | false => exact ⟨false, hyields.bind (.pure false), by simp⟩

theorem findConstructor?_yields (args : List Value) (constructors : List Constructor) :
    Yields (findConstructor? args constructors) catalog known
      (catalog.firstFit? known args constructors) := by
  induction constructors with
  | nil => exact .pure none
  | cons c rest ih =>
    rw [findConstructor?, Catalog.firstFit?, List.find?_cons, Constructor.arity]
    by_cases harity : c.params.length = args.length
    · obtain ⟨each, hyields, heach⟩ : Decides (acceptsEach (c.params.zip args)) catalog known _ :=
        acceptsEach_decides (c.params.zip args)
      have hfits : decide (catalog.Fits known args c) = each := by
        rw [Bool.eq_iff_iff, decide_eq_true_iff, heach, Catalog.Fits, and_iff_right harity]
      rw [beq_iff_eq.mpr harity, hfits]
      cases each with
      | true => exact hyields.bind (.pure (some c))
      | false => exact hyields.bind ih
    · have hfits : ¬ catalog.Fits known args c := fun hfits => harity hfits.1
      rw [beq_false_of_ne harity, decide_eq_false hfits]
      exact ih

theorem construct?_yields {full : String} {info : ClassInfo}
    (hclass : catalog.classes.get? full = some info) (id : InstanceId) (args : List Value) :
    Yields (construct? id full args) catalog known
      ((if info.constructors.isEmpty && args.isEmpty then some .implicit
        else catalog.firstFit? known args info.constructors).map fun c =>
          c.build id full args) := by
  refine .get fun memo hmemo => ?_
  rw [hmemo, hclass]
  simp only
  split
  · exact .pure _
  · exact (findConstructor?_yields args info.constructors).bind (.pure _)

end MemoCatalog

/-! ### Objects that are made -/

/-- From arguments, the first constructor that fits makes an object of a type, in the order in which
the constructors are declared. Without a constructor an object is made of no arguments alone. -/
structure MadeByFirstFit (catalog : Catalog) (known : String → List String) (full : String)
    (constructors : List Constructor) (args : List Value)
    (construct? : InstanceId → Option Object) :
    Prop where
  succeeds : ∀ id, (construct? id).isSome ↔
    (∃ c ∈ constructors, catalog.Fits known args c) ∨ (constructors = [] ∧ args = [])
  firstFit : ∀ id c, catalog.IsFirstFit known args constructors c →
    construct? id = some (c.build id full args)
  implicit : ∀ id, constructors = [] → args = [] → construct? id = some ⟨id, full, [], none⟩

section Construct

open Catalog

variable {catalog : Catalog} {known : String → List String} {full : String} {info : ClassInfo}
  {constructors : List Constructor} {args : List Value} {construct? : InstanceId → Option Object}

theorem madeByFirstFit_of_eq
    (h : ∀ id, construct? id = (if constructors.isEmpty && args.isEmpty then some .implicit
      else catalog.firstFit? known args constructors).map fun c => c.build id full args) :
    MadeByFirstFit catalog known full constructors args construct? := by
  by_cases hempty : constructors = [] ∧ args = []
  · obtain ⟨rfl, rfl⟩ := hempty
    refine ⟨fun id => ?_, ?_, fun id _ _ => h id⟩
    · rw [h]
      simp
    · rintro id c ⟨before, after, hsplit, -⟩
      simp at hsplit
  · have hnot : ¬ (constructors.isEmpty && args.isEmpty) := by simpa using hempty
    simp only [if_neg hnot] at h
    refine ⟨fun id => ?_, fun id c hfirst => ?_, fun id hconstructors hargs =>
      absurd ⟨hconstructors, hargs⟩ hempty⟩
    · rw [h, Option.isSome_map, firstFit?_isSome_iff, or_iff_left hempty]
    · rw [h, firstFit?_eq_some_iff.mpr hfirst, Option.map_some]

theorem Catalog.constructor?_eq (hclass : catalog.classes.get? full = some info)
    (args : List Value) : catalog.constructor? full args =
      if info.constructors.isEmpty && args.isEmpty then some .implicit
      else catalog.firstFit? catalog.ancestry args info.constructors := by
  have hfind : (info.constructors.find? fun c => catalog.acceptsAll c args) =
      catalog.firstFit? catalog.ancestry args info.constructors := by
    rw [firstFit?]
    congr 1
    funext c
    rw [Bool.eq_iff_iff, acceptsAll_iff, decide_eq_true_iff]
  rw [constructor?, hclass, ← hfind]
  rfl

theorem Catalog.constructor?_of_isFirstFit (hclass : catalog.classes.get? full = some info)
    {c : Constructor} (h : catalog.IsFirstFit catalog.ancestry args info.constructors c) :
    catalog.constructor? full args = some c := by
  have hne : ¬ (info.constructors.isEmpty && args.isEmpty) := by
    obtain ⟨before, after, hsplit, -⟩ := h
    simp [hsplit]
  rw [constructor?_eq hclass, if_neg hne, firstFit?_eq_some_iff.mpr h]

theorem Catalog.construct?_madeByFirstFit (hclass : catalog.classes.get? full = some info)
    (args : List Value) :
    MadeByFirstFit catalog catalog.ancestry full info.constructors args
      fun id => catalog.construct? id full args :=
  madeByFirstFit_of_eq fun id => by rw [construct?, constructor?_eq hclass]

theorem MemoCatalog.construct?_madeByFirstFit (memo : MemoCatalog)
    (hclass : memo.catalog.classes.get? full = some info) (args : List Value) :
    MadeByFirstFit memo.catalog memo.known full info.constructors args
      fun id => ((MemoCatalog.construct? id full args).run memo).1 := by
  refine madeByFirstFit_of_eq fun id => ?_
  obtain ⟨after, hrun, -⟩ := construct?_yields hclass id args memo rfl rfl
  rw [hrun]

end Construct

/-! ### Fields of the object -/

namespace Constructor

variable {c : Constructor} {args : List Value} {field : String} {value : Value}

/-- The argument of the last parameter that has a field. -/
def LastArgument (c : Constructor) (args : List Value) (field : String) (value : Value) : Prop :=
  ∃ earlier param later, c.params.zip args = earlier ++ (param, value) :: later ∧
    param.field = field ∧ ∀ pair ∈ later, pair.1.field ≠ field

theorem exists_last {pairs : List (ConstructorParam × Value)}
    (h : ∃ pair ∈ pairs, pair.1.field = field) :
    ∃ earlier param value later, pairs = earlier ++ (param, value) :: later ∧ param.field = field ∧
      ∀ pair ∈ later, pair.1.field ≠ field := by
  induction pairs with
  | nil => simp at h
  | cons pair rest ih =>
    by_cases hrest : ∃ pair ∈ rest, pair.1.field = field
    · obtain ⟨earlier, param, value, later, rfl, hlast⟩ := ih hrest
      exact ⟨pair :: earlier, param, value, later, rfl, hlast⟩
    · obtain ⟨param, value⟩ := pair
      have hfield : param.field = field := by
        obtain ⟨pair, hpair, hfield⟩ := h
        rcases List.mem_cons.mp hpair with rfl | hpair
        · exact hfield
        · exact absurd ⟨pair, hpair, hfield⟩ hrest
      exact ⟨[], param, value, rest, rfl, hfield, fun pair hpair hfield =>
        hrest ⟨pair, hpair, hfield⟩⟩

theorem exists_lastArgument (hlength : c.params.length = args.length) {param : ConstructorParam}
    (hparam : param ∈ c.params) : ∃ value, c.LastArgument args param.field value := by
  have hpairs : ∃ pair ∈ c.params.zip args, pair.1.field = param.field := by
    rw [← List.map_fst_zip hlength.le] at hparam
    obtain ⟨pair, hpair, hfst⟩ := List.mem_map.mp hparam
    exact ⟨pair, hpair, congrArg ConstructorParam.field hfst⟩
  obtain ⟨earlier, param, value, later, hlast⟩ := exists_last hpairs
  exact ⟨value, earlier, param, later, hlast⟩

def setFields (object : Object) (pairs : List (ConstructorParam × Value)) : Object :=
  pairs.foldl (fun object (param, arg) => object.setField param.field arg) object

theorem isManaged_setFields (object : Object) (pairs : List (ConstructorParam × Value)) :
    (setFields object pairs).isManaged = object.isManaged := by
  induction pairs generalizing object with
  | nil => rfl
  | cons pair rest ih => exact ih _

theorem field?_setFields_of_ne {pairs : List (ConstructorParam × Value)}
    (h : ∀ pair ∈ pairs, pair.1.field ≠ field) (object : Object) :
    (setFields object pairs).field? field = object.field? field := by
  induction pairs generalizing object with
  | nil => rfl
  | cons pair rest ih =>
    obtain ⟨hpair, hrest⟩ := List.forall_mem_cons.mp h
    exact (ih hrest _).trans (Bindings.get?_insert_of_ne _ _ hpair)

theorem field?_build (h : c.LastArgument args field value) (id : InstanceId) (full : String) :
    (c.build id full args).field? field = some value := by
  obtain ⟨earlier, param, later, hsplit, rfl, hlater⟩ := h
  have hbuild : c.build id full args = setFields
      ((setFields ⟨id, full, [], none⟩ earlier).setField param.field value) later := by
    rw [build, hsplit, List.foldl_append]
    rfl
  rw [hbuild, field?_setFields_of_ne hlater]
  exact Bindings.get?_insert_self _ _ _

theorem isManaged_build (c : Constructor) (id : InstanceId) (full : String) (args : List Value) :
    (c.build id full args).isManaged = false :=
  isManaged_setFields _ _

end Constructor

end ObjectQuery
