import ObjectQuery.Proofs.Catalog.Construction

/-!
Catalogs that have received the same types. Main statement: as long as their names and simple names
differ, the order in which types are registered does not matter, nor what is asked in between, to
any answer that a catalog gives afterwards.
-/

namespace ObjectQuery

namespace Bindings

variable {α : Type}

theorem get?_insert (bindings : Bindings α) (name other : String) (value : α) :
    get? (insert bindings name value) other =
      if name = other then some value else get? bindings other := by
  split
  · rename_i h
    rw [← h, get?_insert_self]
  · rename_i h
    exact get?_insert_of_ne bindings value h

theorem get?_insertIfNew (bindings : Bindings α) (name other : String) (value : α) :
    get? (insertIfNew bindings name value) other =
      if name = other then some ((get? bindings other).getD value) else get? bindings other := by
  rw [insertIfNew, contains]
  cases hname : get? bindings name with
  | none =>
    rw [Option.isSome_none, if_neg Bool.false_ne_true, get?_insert]
    split
    · rename_i h
      rw [← h, hname]
      rfl
    · rfl
  | some kept =>
    rw [Option.isSome_some, if_pos rfl]
    split
    · rename_i h
      rw [← h, hname]
      rfl
    · rfl

end Bindings

namespace Catalog

variable {catalog catalog' : Catalog}

/-- Catalogs in which names stand for the same. -/
structure Alike (catalog catalog' : Catalog) : Prop where
  classes : ∀ name, catalog.classes.get? name = catalog'.classes.get? name
  imports : ∀ name, catalog.imports.get? name = catalog'.imports.get? name

namespace Alike

theorem refl (catalog : Catalog) : catalog.Alike catalog := ⟨fun _ => rfl, fun _ => rfl⟩

theorem trans {catalog'' : Catalog} (h : catalog.Alike catalog') (h' : catalog'.Alike catalog'') :
    catalog.Alike catalog'' :=
  ⟨fun name => (h.classes name).trans (h'.classes name),
    fun name => (h.imports name).trans (h'.imports name)⟩

/-! ### Answers of like catalogs -/

variable (h : catalog.Alike catalog')

include h

theorem resolve?_eq (name : String) : catalog.resolve? name = catalog'.resolve? name := by
  have hknown : catalog.isKnown = catalog'.isKnown := by
    funext name
    rw [isKnown, isKnown, Bindings.contains, Bindings.contains, h.classes]
  rw [resolve?, resolve?, hknown, h.imports]

theorem resolveOrSelf_eq : catalog.resolveOrSelf = catalog'.resolveOrSelf := by
  funext name
  rw [resolveOrSelf, resolveOrSelf, h.resolve?_eq]

theorem directSupertypes_eq (name : String) :
    catalog.directSupertypes name = catalog'.directSupertypes name := by
  rw [directSupertypes, directSupertypes, h.classes, h.resolveOrSelf_eq]

theorem ancestry_eq (name : String) : catalog.ancestry name = catalog'.ancestry name := by
  obtain ⟨chain, hwalks, hchain⟩ := catalog.walks_ancestry name
  obtain ⟨chain', hwalks', hchain'⟩ := catalog'.walks_ancestry name
  rw [hchain, hchain', (hwalks.congr h.directSupertypes_eq).unique hwalks']

theorem isAssignable_eq (source target : String) :
    catalog.isAssignable source target = catalog'.isAssignable source target := by
  rw [isAssignable, isAssignable, h.ancestry_eq, h.resolveOrSelf_eq]

theorem isInstance_eq (value : Value) (typeName : String) :
    catalog.isInstance value typeName = catalog'.isInstance value typeName := by
  rw [isInstance, isInstance]
  cases value.typeName? with
  | none => rfl
  | some actual => exact h.isAssignable_eq actual typeName

theorem accepts_eq (typeName : String) (value : Value) :
    catalog.accepts typeName value = catalog'.accepts typeName value := by
  rw [accepts, accepts, h.isInstance_eq, h.resolve?_eq]
  cases catalog'.resolve? typeName with
  | none => rfl
  | some resolved => simp only [h.isAssignable_eq]

theorem constructor?_eq (typeName : String) (args : List Value) :
    catalog.constructor? typeName args = catalog'.constructor? typeName args := by
  have haccepts : catalog.acceptsAll = catalog'.acceptsAll := by
    funext c args
    simp only [acceptsAll, h.accepts_eq]
  rw [constructor?, constructor?, h.classes]
  simp only [haccepts]

/-! ### Registrations -/

omit h in
theorem register (h : catalog.Alike catalog') (c : ClassInfo) :
    (catalog.register c).Alike (catalog'.register c) := by
  constructor
  · intro name
    simp only [Catalog.register, Bindings.get?_insert, h.classes]
  · intro name
    simp only [Catalog.register]
    split
    · exact h.imports name
    · rw [Bindings.get?_insertIfNew, Bindings.get?_insertIfNew, h.imports]

end Alike

theorem imports_register (catalog : Catalog) (c : ClassInfo) (name : String) :
    (catalog.register c).imports.get? name =
      if c.simpleName ≠ c.name ∧ c.simpleName = name then
        some ((catalog.imports.get? name).getD c.name)
      else catalog.imports.get? name := by
  rw [register]
  by_cases hsimple : c.simpleName = c.name
  · simp [hsimple]
  · simp [hsimple, Bindings.get?_insertIfNew]

theorem register_register (catalog : Catalog) {c c' : ClassInfo} (hname : c.name ≠ c'.name)
    (hsimple : c.simpleName ≠ c'.simpleName) :
    ((catalog.register c).register c').Alike ((catalog.register c').register c) := by
  constructor
  · intro name
    simp only [register, Bindings.get?_insert]
    by_cases h : c.name = name <;> by_cases h' : c'.name = name <;> simp_all
  · intro name
    simp only [imports_register]
    by_cases h : c.simpleName = name <;> by_cases h' : c'.simpleName = name <;> simp_all

def registerAll (catalog : Catalog) (classes : List ClassInfo) : Catalog :=
  classes.foldl register catalog

theorem Alike.registerAll (h : catalog.Alike catalog') (classes : List ClassInfo) :
    (catalog.registerAll classes).Alike (catalog'.registerAll classes) := by
  induction classes generalizing catalog catalog' with
  | nil => exact h
  | cons c rest ih => exact ih (h.register c)

/-- No two types have a name or a simple name in common. -/
structure TellApart (classes : List ClassInfo) : Prop where
  names : (classes.map ClassInfo.name).Nodup
  simpleNames : (classes.map ClassInfo.simpleName).Nodup

theorem TellApart.perm {classes classes' : List ClassInfo} (h : TellApart classes)
    (hperm : classes.Perm classes') : TellApart classes' :=
  ⟨(hperm.map _).nodup_iff.mp h.names, (hperm.map _).nodup_iff.mp h.simpleNames⟩

theorem TellApart.tail {c : ClassInfo} {rest : List ClassInfo} (h : TellApart (c :: rest)) :
    TellApart rest :=
  ⟨(List.nodup_cons.mp h.names).2, (List.nodup_cons.mp h.simpleNames).2⟩

theorem registerAll_perm {classes classes' : List ClassInfo} (hperm : classes.Perm classes')
    (happart : TellApart classes) (catalog : Catalog) :
    (catalog.registerAll classes).Alike (catalog.registerAll classes') := by
  induction hperm generalizing catalog with
  | nil => exact .refl catalog
  | cons c _ ih => exact ih happart.tail (catalog.register c)
  | swap c c' rest =>
    have hname : c'.name ≠ c.name := by
      have := happart.names
      simp_all
    have hsimple : c'.simpleName ≠ c.simpleName := by
      have := happart.simpleNames
      simp_all
    exact (catalog.register_register hname hsimple).registerAll rest
  | trans hfirst _ ih ih' => exact (ih happart catalog).trans (ih' (happart.perm hfirst) catalog)

end Catalog

namespace MemoCatalog

/-- What is remembered are ancestries as they are. -/
def Sound (memo : MemoCatalog) : Prop :=
  ∀ name chain, memo.chains.get? name = some chain → chain = memo.catalog.ancestry name

theorem sound_iff {memo : MemoCatalog} :
    memo.Sound ↔ memo.known = memo.catalog.ancestry := by
  constructor
  · intro h
    funext name
    rw [known]
    cases hchain : memo.chains.get? name with
    | none => rfl
    | some chain => exact h name chain hchain
  · intro h name chain hchain
    rw [← h, known, hchain, Option.getD_some]

/-- On a sound memo over a catalog a query comes to a result and leaves a sound memo over it. -/
def ComesTo {α : Type} (query : Query α) (catalog : Catalog) (result : α) : Prop :=
  ∀ memo : MemoCatalog, memo.Sound → memo.catalog = catalog →
    ∃ after, query.run memo = (result, after) ∧ after.Sound ∧ after.catalog = catalog

theorem ComesTo.of_yields {α : Type} {query : Query α} {catalog : Catalog} {result : α}
    (h : Yields query catalog catalog.ancestry result) : ComesTo query catalog result := by
  intro memo hsound hcatalog
  have hknown : memo.known = catalog.ancestry := hcatalog ▸ sound_iff.mp hsound
  obtain ⟨after, hrun, hcatalog', hknown'⟩ := h memo hcatalog hknown
  exact ⟨after, hrun, sound_iff.mpr (hcatalog' ▸ hknown'), hcatalog'⟩

variable {catalog : Catalog}

theorem isInstance_yields (value : Value) (typeName : String) :
    Yields (isInstance value typeName) catalog catalog.ancestry
      (catalog.isInstance value typeName) := by
  rw [isInstance, Catalog.isInstance]
  cases value.typeName? with
  | none => exact .pure false
  | some actual => exact isAssignable_yields actual typeName

theorem construct?_yields_ancestry (id : InstanceId) (typeName : String) (args : List Value) :
    Yields (construct? id typeName args) catalog catalog.ancestry
      (catalog.construct? id typeName args) := by
  cases hclass : catalog.classes.get? typeName with
  | none =>
    have hnone : catalog.construct? id typeName args = none := by
      rw [Catalog.construct?, Catalog.constructor?, hclass]
      rfl
    refine .get fun memo hmemo => ?_
    rw [hmemo, hclass, hnone]
    exact .pure none
  | some info =>
    rw [Catalog.construct?, Catalog.constructor?_eq hclass]
    exact construct?_yields hclass id args

/-! ### Sessions -/

/-- What a catalog can be asked. -/
inductive Question where
  | resolve (name : String)
  | ancestry (name : String)
  | isAssignable (source target : String)
  | isInstance (value : Value) (typeName : String)
  | construct (id : InstanceId) (typeName : String) (args : List Value)

inductive Reply where
  | resolved (full : Option String)
  | chain (names : List String)
  | decided (holds : Bool)
  | constructed (object : Option Object)

namespace Question

def ask : Question → Query Reply
  | resolve name => return .resolved ((← get).catalog.resolve? name)
  | ancestry name => return .chain (← MemoCatalog.ancestry name)
  | isAssignable source target => return .decided (← MemoCatalog.isAssignable source target)
  | isInstance value typeName => return .decided (← MemoCatalog.isInstance value typeName)
  | construct id typeName args => return .constructed (← MemoCatalog.construct? id typeName args)

/-- The reply of a catalog that remembers nothing. -/
def reply (catalog : Catalog) : Question → Reply
  | resolve name => .resolved (catalog.resolve? name)
  | ancestry name => .chain (catalog.ancestry name)
  | isAssignable source target => .decided (catalog.isAssignable source target)
  | isInstance value typeName => .decided (catalog.isInstance value typeName)
  | construct id typeName args => .constructed (catalog.construct? id typeName args)

theorem ask_yields (question : Question) :
    Yields question.ask catalog catalog.ancestry (question.reply catalog) := by
  cases question with
  | resolve name =>
    refine .get fun memo hmemo => ?_
    rw [hmemo]
    exact .pure _
  | ancestry name => exact (ancestry_yields name).bind (.pure _)
  | isAssignable source target => exact (isAssignable_yields source target).bind (.pure _)
  | isInstance value typeName => exact (isInstance_yields value typeName).bind (.pure _)
  | construct id typeName args =>
    exact (construct?_yields_ancestry id typeName args).bind (.pure _)

theorem reply_eq {catalog' : Catalog} (h : catalog.Alike catalog') (question : Question) :
    question.reply catalog = question.reply catalog' := by
  cases question with
  | resolve name => rw [reply, reply, h.resolve?_eq]
  | ancestry name => rw [reply, reply, h.ancestry_eq]
  | isAssignable source target => rw [reply, reply, h.isAssignable_eq]
  | isInstance value typeName => rw [reply, reply, h.isInstance_eq]
  | construct id typeName args =>
    rw [reply, reply, Catalog.construct?, Catalog.construct?, h.constructor?_eq]

end Question

inductive Event where
  | register (c : ClassInfo)
  | ask (question : Question)

def Event.happen : Event → MemoCatalog → MemoCatalog
  | register c, memo => memo.register c
  | ask question, memo => (question.ask.run memo).2

def Event.registered? : Event → Option ClassInfo
  | register c => some c
  | ask _ => none

/-- Registrations and questions one after another. -/
abbrev Session := List Event

namespace Session

def registered (session : Session) : List ClassInfo := session.filterMap Event.registered?

/-- A catalog after a session, which it begins without remembering anything. -/
def last (session : Session) (catalog : Catalog) : MemoCatalog :=
  session.foldl (fun memo event => event.happen memo) ⟨catalog, []⟩

theorem last_append_singleton (session : Session) (event : Event) (catalog : Catalog) :
    last (session ++ [event]) catalog = event.happen (session.last catalog) := by
  simp [last]

theorem registered_append_singleton (session : Session) (event : Event) :
    registered (session ++ [event]) = session.registered ++ event.registered?.toList := by
  cases event <;> simp [registered, Event.registered?]

/-- Of a session a catalog keeps the registrations, and what it remembers is up to date. -/
theorem last_spec (session : Session) (catalog : Catalog) :
    (session.last catalog).Sound ∧
      (session.last catalog).catalog = catalog.registerAll session.registered := by
  induction session using List.reverseRecOn with
  | nil => exact ⟨fun _ _ h => (nomatch h), rfl⟩
  | append_singleton session event ih =>
    obtain ⟨hsound, hcatalog⟩ := ih
    rw [last_append_singleton, registered_append_singleton]
    cases event with
    | register c =>
      refine ⟨fun _ _ h => (nomatch h), ?_⟩
      rw [Event.registered?, Option.toList_some, Catalog.registerAll, List.foldl_concat]
      exact congrArg (Catalog.register · c) hcatalog
    | ask question =>
      obtain ⟨after, hrun, hsound', hcatalog'⟩ :=
        ComesTo.of_yields question.ask_yields _ hsound hcatalog
      rw [Event.happen, hrun, Event.registered?, Option.toList_none, List.append_nil]
      exact ⟨hsound', hcatalog'⟩

theorem run_mapM_ask {memo : MemoCatalog} (hsound : memo.Sound) (questions : List Question) :
    ((questions.mapM Question.ask).run memo).1 = questions.map (Question.reply memo.catalog) := by
  have hyields : Yields (questions.mapM Question.ask) memo.catalog memo.catalog.ancestry
      (questions.map (Question.reply memo.catalog)) := by
    induction questions with
    | nil => exact .pure []
    | cons question rest ih =>
      rw [List.mapM_cons]
      exact question.ask_yields.bind (ih.bind (.pure _))
  obtain ⟨after, hrun, -⟩ := ComesTo.of_yields hyields memo hsound rfl
  rw [hrun]

/-- Two sessions that register the same types in any order, with any questions in between, leave
catalogs that answer all later questions alike, if the types have different names and different
simple names. -/
theorem replies_of_registered_perm (catalog : Catalog) {first second : Session}
    (hperm : first.registered.Perm second.registered)
    (happart : Catalog.TellApart first.registered) (questions : List Question) :
    ((questions.mapM Question.ask).run (first.last catalog)).1 =
        ((questions.mapM Question.ask).run (second.last catalog)).1 ∧
      ∀ typeName args, (first.last catalog).catalog.constructor? typeName args =
        (second.last catalog).catalog.constructor? typeName args := by
  obtain ⟨hsound, hcatalog⟩ := first.last_spec catalog
  obtain ⟨hsound', hcatalog'⟩ := second.last_spec catalog
  have halike := Catalog.registerAll_perm hperm happart catalog
  rw [run_mapM_ask hsound, run_mapM_ask hsound', hcatalog, hcatalog']
  exact ⟨List.map_congr_left fun question _ => question.reply_eq halike, halike.constructor?_eq⟩

def supertype : ClassInfo := ⟨"b.B", none, [], none, []⟩

def subtype : ClassInfo := ⟨"a.A", some "B", [], none, []⟩

theorem simpleName_supertype : supertype.simpleName = "B" := by cbv

theorem simpleName_subtype : subtype.simpleName = "A" := by cbv

/-- A type before its supertype, with a question about it in between. -/
def subtypeFirst : Session :=
  [.register subtype, .ask (.ancestry "a.A"), .register supertype]

theorem replies_of_registered_perm_subtypeFirst :
    subtypeFirst.registered.Perm [supertype, subtype] ∧
    Catalog.TellApart subtypeFirst.registered ∧
    ((([.isAssignable "a.A" "B"] : List Question).mapM Question.ask).run
        (subtypeFirst.last .empty)).1 =
      ((([.isAssignable "a.A" "B"] : List Question).mapM Question.ask).run
        (last [.register supertype, .register subtype] .empty)).1 := by
  have hperm : subtypeFirst.registered.Perm (registered [.register supertype, .register subtype]) :=
    List.Perm.swap _ _ []
  have happart : Catalog.TellApart subtypeFirst.registered := by
    refine ⟨by decide, ?_⟩
    change [subtype.simpleName, supertype.simpleName].Nodup
    rw [simpleName_subtype, simpleName_supertype]
    decide
  exact ⟨hperm, happart, (replies_of_registered_perm .empty hperm happart _).1⟩

end Session

end MemoCatalog

end ObjectQuery
