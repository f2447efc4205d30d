import Mathlib
import ObjectQuery.Catalog.Memo

/-!
What a catalog that remembers ancestries answers after a history of calls. Main statement: the
answers about a type are those of a new catalog as long as the ancestry of the type is still what it
was when it was found, and so in any case until an import is added.
-/

namespace ObjectQuery

namespace MemoCatalog

inductive Call where
  | register (c : ClassInfo)
  | addImport (shortName typeName : String)
  | ancestry (name : String)
  | isAssignable (source target : String)
  | isInstance (value : Value) (typeName : String)

/-- What a call gives back; a change gives nothing. -/
inductive Answer where
  | changed
  | chain (names : List String)
  | decided (holds : Bool)
deriving DecidableEq

namespace Call

def isChange : Call → Bool
  | register _ | addImport .. => true
  | _ => false

/-- The type whose ancestry a call asks for. -/
def asked? : Call → Option String
  | register _ | addImport .. => none
  | ancestry name => some name
  | isAssignable source _ => some source
  | isInstance value _ => value.typeName?

def perform : Call → Query Answer
  | register c => do
    modify (·.register c)
    return .changed
  | addImport shortName typeName => do
    modify (·.addImport shortName typeName)
    return .changed
  | ancestry name => return .chain (← MemoCatalog.ancestry name)
  | isAssignable source target => return .decided (← MemoCatalog.isAssignable source target)
  | isInstance value typeName => return .decided (← MemoCatalog.isInstance value typeName)

end Call

/-- The calls that a catalog has received, the latest first. -/
abbrev History := List Call

namespace History

/-- A new catalog that has received a history. -/
def memo : History → MemoCatalog
  | [] => .empty
  | call :: past => (call.perform.run (memo past)).2

def answer (history : History) (call : Call) : Answer := (call.perform.run history.memo).1

/-- The changes in a history, without the queries. -/
def changes (history : History) : History := history.filter Call.isChange

/-- What had come before the ancestry of a type was found that is remembered: the history before the
first query about the type since the last registration. -/
def found? (name : String) : History → Option History
  | [] => none
  | .register _ :: _ => none
  | call :: past => (found? name past).or (if call.asked? = some name then some past else none)

end History

/-! ### One call -/

/-- The ancestry that queries get: the one that is remembered, or else the one that is found. -/
def known (memo : MemoCatalog) (name : String) : List String :=
  (memo.chains.get? name).getD (memo.catalog.ancestry name)

/-- The catalog behind a query about a type. -/
def recalling (memo : MemoCatalog) (name : String) : MemoCatalog :=
  { memo with chains := memo.chains.insert name (memo.known name) }

theorem chains_recalling (memo : MemoCatalog) (name other : String) :
    (memo.recalling name).chains.get? other =
      if name = other then some (memo.known name) else memo.chains.get? other := by
  split
  · rename_i h
    rw [← h]
    exact Bindings.get?_insert_self _ _ _
  · rename_i h
    exact Bindings.get?_insert_of_ne _ _ h

theorem run_ancestry (name : String) (memo : MemoCatalog) :
    (ancestry name).run memo = (memo.known name, memo.recalling name) := by
  rw [recalling, known]
  cases h : memo.chains.get? name with
  | none =>
    simp only [ancestry, StateT.run_bind, StateT.run_get, pure_bind, h, Option.getD_none]
    rfl
  | some chain =>
    simp only [ancestry, StateT.run_bind, StateT.run_get, pure_bind, h, Option.getD_some,
      Bindings.insert_of_get?_eq_some h]
    rfl

namespace Call

/-- The answer that a catalog gives if it has the given ancestries. -/
def answerFrom (catalog : Catalog) (known : String → List String) : Call → Answer
  | register _ | addImport .. => .changed
  | ancestry name => .chain (known name)
  | isAssignable source target => .decided ((known source).contains (catalog.resolveOrSelf target))
  | isInstance value typeName =>
    match value.typeName? with
    | some actual => .decided ((known actual).contains (catalog.resolveOrSelf typeName))
    | none => .decided false

/-- A change forgets what a registration may concern, and a query remembers what it asked for. -/
def effect (call : Call) (memo : MemoCatalog) : MemoCatalog :=
  match call with
  | register c => memo.register c
  | addImport shortName typeName => memo.addImport shortName typeName
  | query =>
    match query.asked? with
    | some name => memo.recalling name
    | none => memo

theorem run_perform (call : Call) (memo : MemoCatalog) :
    call.perform.run memo = (call.answerFrom memo.catalog memo.known, call.effect memo) := by
  have hassignable : ∀ source target, (MemoCatalog.isAssignable source target).run memo =
      ((memo.known source).contains (memo.catalog.resolveOrSelf target),
        memo.recalling source) := by
    intro source target
    simp only [MemoCatalog.isAssignable, StateT.run_bind, run_ancestry, StateT.run_get]
    rfl
  cases call with
  | register c | addImport shortName typeName => rfl
  | ancestry name =>
    simp only [perform, StateT.run_bind, run_ancestry]
    rfl
  | isAssignable source target =>
    simp only [perform, StateT.run_bind, hassignable]
    rfl
  | isInstance value typeName =>
    simp only [perform, MemoCatalog.isInstance, StateT.run_bind, answerFrom, effect, asked?]
    cases value.typeName? with
    | none => rfl
    | some actual =>
      simp only [hassignable]
      rfl

theorem answerFrom_congr {call : Call} {catalog : Catalog} {known known' : String → List String}
    (h : ∀ name, call.asked? = some name → known name = known' name) :
    call.answerFrom catalog known = call.answerFrom catalog known' := by
  cases call with
  | register c | addImport shortName typeName => rfl
  | ancestry name => rw [answerFrom, answerFrom, h name rfl]
  | isAssignable source target => rw [answerFrom, answerFrom, h source rfl]
  | isInstance value typeName =>
    rw [answerFrom, answerFrom]
    cases htype : value.typeName? with
    | none => rfl
    | some actual => simp only [h actual htype]

theorem effect_of_query {call : Call} (h : call.isChange = false) (memo : MemoCatalog) :
    call.effect memo = match call.asked? with
      | some name => memo.recalling name
      | none => memo := by
  cases call with
  | register | addImport => cases h
  | _ => rfl

theorem catalog_effect_congr (call : Call) {memo memo' : MemoCatalog}
    (h : memo.catalog = memo'.catalog) :
    (call.effect memo).catalog = (call.effect memo').catalog := by
  cases hchange : call.isChange with
  | true =>
    cases call with
    | register c => exact congrArg (Catalog.register · c) h
    | addImport shortName typeName => exact congrArg (Catalog.addImport · shortName typeName) h
    | _ => cases hchange
  | false =>
    rw [effect_of_query hchange, effect_of_query hchange]
    cases call.asked? <;> exact h

end Call

/-! ### Histories -/

namespace History

variable (history : History) (name : String)

theorem answer_eq (call : Call) :
    history.answer call = call.answerFrom history.memo.catalog history.memo.known := by
  rw [answer, call.run_perform]

theorem memo_cons (call : Call) : memo (call :: history) = call.effect history.memo := by
  rw [memo, call.run_perform]

theorem catalog_changes : history.changes.memo.catalog = history.memo.catalog := by
  induction history with
  | nil => rfl
  | cons call past ih =>
    cases hchange : call.isChange with
    | true =>
      rw [changes, List.filter_cons_of_pos hchange, memo_cons, memo_cons]
      exact call.catalog_effect_congr ih
    | false =>
      rw [changes, List.filter_cons_of_neg (by simp [hchange]), memo_cons,
        Call.effect_of_query hchange]
      cases call.asked? <;> exact ih

/-- A catalog remembers of a type the ancestry that it had before the first query about it. -/
theorem chains_memo : history.memo.chains.get? name =
    (history.found? name).map fun past => past.memo.catalog.ancestry name := by
  induction history with
  | nil => rfl
  | cons call past ih =>
    rw [memo_cons]
    cases hchange : call.isChange with
    | true =>
      cases call with
      | register c => rfl
      | addImport shortName typeName =>
        rw [found?]
        · simp only [Call.asked?, reduceCtorEq, if_false, Option.or_none]
          exact ih
        · simp
      | _ => cases hchange
    | false =>
      rw [Call.effect_of_query hchange, found?]
      · cases hasked : call.asked? with
        | none =>
          simp only [reduceCtorEq, if_false, Option.or_none]
          exact ih
        | some other =>
          simp only [chains_recalling, Option.some.injEq]
          by_cases hname : other = name
          · subst hname
            rw [if_pos rfl, if_pos rfl, known, ih]
            cases found? other past <;> rfl
          · rw [if_neg hname, if_neg hname, Option.or_none]
            exact ih
      · rintro c rfl
        cases hchange

theorem known_memo : history.memo.known name =
    ((history.found? name).getD history).memo.catalog.ancestry name := by
  rw [known, chains_memo]
  cases history.found? name <;> rfl

theorem found?_changes : history.changes.found? name = none := by
  induction history with
  | nil => rfl
  | cons call past ih =>
    cases hchange : call.isChange with
    | true =>
      rw [changes, List.filter_cons_of_pos hchange, ← changes]
      cases call with
      | register c => rfl
      | addImport shortName typeName =>
        rw [found?, ih]
        · rfl
        · simp
      | _ => cases hchange
    | false =>
      rw [changes, List.filter_cons_of_neg (by simp [hchange])]
      exact ih

/-- A new catalog answers by the ancestries as they are. -/
theorem answer_changes (call : Call) : history.changes.answer call =
    call.answerFrom history.memo.catalog history.memo.catalog.ancestry := by
  rw [answer_eq, catalog_changes]
  refine Call.answerFrom_congr fun name _ => ?_
  rw [known_memo, found?_changes, Option.getD_none, catalog_changes]

theorem answer_eq_iff :
    (∀ call, call.asked? = some name → history.answer call = history.changes.answer call) ↔
      ∀ past, history.found? name = some past →
        past.memo.catalog.ancestry name = history.memo.catalog.ancestry name := by
  constructor
  · intro h past hpast
    have hchain := h (.ancestry name) rfl
    rw [answer_eq, answer_changes, Call.answerFrom, Call.answerFrom, known_memo, hpast] at hchain
    exact Answer.chain.inj hchain
  · intro h call hcall
    rw [answer_eq, answer_changes]
    refine Call.answerFrom_congr fun asked hasked => ?_
    obtain rfl : name = asked := Option.some.inj (hcall.symm.trans hasked)
    rw [known_memo]
    cases hpast : history.found? name with
    | none => rfl
    | some past => exact h past hpast

/-- Until an import is added, calls about a type are answered as a new catalog answers them that has
received the same changes. In any case they are exactly as long as the ancestry of the type is what
it was when it was found. -/
theorem answers_transparent (history : History) :
    (∀ call : Call,
      (∀ name past, call.asked? = some name → history.found? name = some past →
        past.changes = history.changes) →
      history.answer call = history.changes.answer call) ∧
    ∀ name : String,
      (∀ call, call.asked? = some name → history.answer call = history.changes.answer call) ↔
        ∀ past, history.found? name = some past →
          past.memo.catalog.ancestry name = history.memo.catalog.ancestry name := by
  refine ⟨fun call h => ?_, history.answer_eq_iff⟩
  cases hasked : call.asked? with
  | none =>
    rw [answer_eq, answer_changes]
    refine Call.answerFrom_congr fun name hname => ?_
    rw [hasked] at hname
    cases hname
  | some name =>
    refine (history.answer_eq_iff name).mpr (fun past hpast => ?_) call hasked
    rw [← catalog_changes past, h name past hasked hpast, catalog_changes]

/-- A query about a type behind another one and behind the registration of its superclass. -/
def registeredLate : History :=
  [.ancestry "a.A", .register ⟨"b.B", none, [], none, []⟩, .ancestry "a.A",
    .register ⟨"a.A", some "B", [], none, []⟩]

theorem answers_transparent_registeredLate :
    (∀ name past, (Call.isAssignable "a.A" "B").asked? = some name →
      registeredLate.found? name = some past → past.changes = registeredLate.changes) ∧
    registeredLate.changes.answer (.isAssignable "a.A" "B") = .decided true ∧
    registeredLate.answer (.isAssignable "a.A" "B") =
      registeredLate.changes.answer (.isAssignable "a.A" "B") := by
  have hchanges : ∀ name past, (Call.isAssignable "a.A" "B").asked? = some name →
      registeredLate.found? name = some past → past.changes = registeredLate.changes := by
    rintro name past hname hpast
    obtain rfl : "a.A" = name := Option.some.inj hname
    obtain rfl := Option.some.inj hpast
    rfl
  refine ⟨hchanges, ?_, (answers_transparent registeredLate).1 _ hchanges⟩
  cbv

/-- A type whose superclass is imported behind the first query about it. -/
def importedLate : History :=
  [.addImport "B" "b.C", .ancestry "a.A", .register ⟨"b.C", none, [], none, []⟩,
    .register ⟨"a.A", some "B", [], none, []⟩]

/-- The ancestry that was found without the import stays. -/
theorem stale_after_import :
    importedLate.answer (.ancestry "a.A") = .chain ["a.A", "B", "Object"] ∧
      importedLate.changes.answer (.ancestry "a.A") = .chain ["a.A", "b.C", "Object"] := by
  constructor <;> cbv

end History

end MemoCatalog

end ObjectQuery
