import ObjectQuery.Proofs.Catalog.Ancestry
import ObjectQuery.Proofs.Catalog.Memo

/-!
Names that stand for types. A test of types resolves the name of the type that is asked for, but
takes the name of the type that a value has as it is. Main statement: after every history a name is
assignable to what the type is that it stands for exactly if it is the type's own name, or if the
type is the root; other names are assignable to the root alone, and not to themselves.
-/

namespace ObjectQuery

namespace Catalog

variable {catalog : Catalog} {name full target : String}

/-! ### Resolution -/

theorem resolve?_of_isKnown (h : catalog.isKnown name) : catalog.resolve? name = some name := by
  rw [resolve?, if_pos h]

theorem isKnown_of_resolve? (h : catalog.resolve? name = some full) : catalog.isKnown full := by
  rw [resolve?] at h
  split at h
  · rename_i hknown
    exact Option.some.inj h ▸ hknown
  · split at h
    · rename_i other hfilter
      obtain rfl := Option.some.inj h
      exact (Option.filter_eq_some_iff.mp hfilter).2
    · have hbuiltin := List.find?_some h
      rw [isKnown, hbuiltin, Bool.or_true]

theorem isKnown_rootType (catalog : Catalog) : catalog.isKnown rootType := by
  have hbuiltin : (builtinSupertypes? rootType).isSome := by decide
  rw [isKnown, hbuiltin, Bool.or_true]

theorem isKnown_of_resolve?_ne (h : catalog.resolve? name = some full) (hne : name ≠ full) :
    catalog.isKnown name = false := by
  by_contra hknown
  rw [Bool.not_eq_false] at hknown
  exact hne (Option.some.inj ((resolve?_of_isKnown hknown).symm.trans h))

/-! ### Ancestries of names -/

theorem mem_ancestry_self (catalog : Catalog) (name : String) : name ∈ catalog.ancestry name :=
  mem_ancestry_iff.mpr (.inr ⟨0, .refl⟩)

theorem directSupertypes_of_unknown (h : catalog.isKnown name = false) :
    catalog.directSupertypes name = [rootType] := by
  rw [isKnown, Bool.or_eq_false_iff, Bindings.contains, Option.isSome_eq_false_iff,
    Option.isNone_iff_eq_none, Option.isSome_eq_false_iff, Option.isNone_iff_eq_none] at h
  rw [directSupertypes, h.1, h.2]
  rfl

theorem ancestry_of_unknown (h : catalog.isKnown name = false) :
    catalog.ancestry name = [name, rootType] := by
  have hroot : name ≠ rootType := by
    rintro rfl
    rw [isKnown_rootType] at h
    cases h
  obtain ⟨chain, hwalks, hancestry⟩ := catalog.walks_ancestry name
  have hvisit : catalog.Walks [name] [] [name] := by
    refine .visit hroot List.not_mem_nil ?_
    rw [directSupertypes_of_unknown h]
    exact .skip (.inl rfl) (.done _)
  rw [hancestry, hwalks.unique hvisit]
  rfl

theorem ancestry_rootType (catalog : Catalog) : catalog.ancestry rootType = [rootType] := by
  obtain ⟨chain, hwalks, hancestry⟩ := catalog.walks_ancestry rootType
  rw [hancestry, hwalks.unique (.skip (.inl rfl) (.done _))]
  rfl

theorem resolveOrSelf_eq_rootType_iff :
    catalog.resolveOrSelf target = rootType ↔ catalog.resolve? target = some rootType := by
  rw [resolveOrSelf]
  cases htarget : catalog.resolve? target with
  | some other => simp
  | none =>
    have hroot : target ≠ rootType := by
      rintro rfl
      rw [resolve?_of_isKnown (isKnown_rootType catalog)] at htarget
      cases htarget
    simpa using hroot

theorem resolveOrSelf_ne (h : catalog.resolve? name = some full)
    (hunknown : catalog.isKnown name = false) : catalog.resolveOrSelf target ≠ name := by
  rw [resolveOrSelf]
  cases htarget : catalog.resolve? target with
  | none =>
    rw [Option.getD_none]
    rintro rfl
    rw [h] at htarget
    cases htarget
  | some other =>
    rintro rfl
    rw [Option.getD_some, isKnown_of_resolve? htarget] at hunknown
    cases hunknown

end Catalog

namespace MemoCatalog

namespace History

open Catalog

variable {history : History} {name full : String}

theorem classes_effect {call : Call} (h : ∀ c, call ≠ .register c) (memo : MemoCatalog) :
    (call.effect memo).catalog.classes = memo.catalog.classes := by
  cases call with
  | register c => exact absurd rfl (h c)
  | addImport | ancestry | isAssignable => rfl
  | isInstance value typeName =>
    rw [Call.effect_of_query rfl]
    split <;> rfl

theorem classes_found? {past : History} (h : history.found? name = some past) :
    past.memo.catalog.classes = history.memo.catalog.classes := by
  induction history with
  | nil => cases h
  | cons call before ih =>
    have hregister : ∀ c, call ≠ .register c := by
      rintro c rfl
      cases h
    rw [memo_cons, classes_effect hregister]
    rw [found?] at h
    · cases hbefore : found? name before with
      | some first =>
        rw [hbefore, Option.some_or] at h
        exact ih (hbefore.trans h)
      | none =>
        rw [hbefore, Option.none_or, Option.ite_none_right_eq_some] at h
        rw [Option.some.inj h.2]
    · exact hregister

theorem mem_known_self (history : History) (name : String) : name ∈ history.memo.known name := by
  rw [known_memo]
  exact mem_ancestry_self _ name

theorem known_rootType (history : History) : history.memo.known rootType = [rootType] := by
  rw [known_memo]
  exact ancestry_rootType _

theorem known_of_unknown (h : history.memo.catalog.isKnown name = false) :
    history.memo.known name = [name, rootType] := by
  rw [known_memo]
  cases hfound : history.found? name with
  | none => exact ancestry_of_unknown h
  | some past =>
    rw [isKnown, ← classes_found? hfound] at h
    exact ancestry_of_unknown h

/-! ### Answers -/

theorem answer_isAssignable (history : History) (source target : String) :
    history.answer (.isAssignable source target) =
      .decided ((history.memo.known source).contains (history.memo.catalog.resolveOrSelf target)) :=
  history.answer_eq _

theorem answer_isInstance (history : History) (o : Object) (target : String) :
    history.answer (.isInstance o.toValue target) =
      history.answer (.isAssignable o.typeName target) := by
  rw [answer_eq, answer_eq]
  rfl

theorem answer_rootType (history : History) (target : String) :
    history.answer (.isAssignable rootType target) =
      .decided (history.memo.catalog.resolve? target == some rootType) := by
  rw [answer_isAssignable, known_rootType]
  refine congrArg Answer.decided ?_
  rw [Bool.eq_iff_iff, List.contains_iff_mem, List.mem_singleton, beq_iff_eq,
    resolveOrSelf_eq_rootType_iff]

section Resolved

variable (h : history.memo.catalog.resolve? name = some full)

include h

theorem answer_of_ne (hne : name ≠ full) (target : String) :
    history.answer (.isAssignable name target) =
      .decided (history.memo.catalog.resolve? target == some rootType) := by
  have hunknown := isKnown_of_resolve?_ne h hne
  rw [answer_isAssignable, known_of_unknown hunknown]
  refine congrArg Answer.decided ?_
  rw [Bool.eq_iff_iff, List.contains_iff_mem, List.mem_cons, List.mem_singleton, beq_iff_eq,
    resolveOrSelf_eq_rootType_iff]
  exact or_iff_right (resolveOrSelf_ne h hunknown)

theorem answer_full : history.answer (.isAssignable full name) = .decided true := by
  rw [answer_isAssignable, resolveOrSelf, h, Option.getD_some,
    List.contains_iff_mem.mpr (mem_known_self history full)]

end Resolved

/-- As what a test asks for a name is the type that it stands for. As what is tested it is so
exactly if it is the type's own name or a name of the root: then it is assignable to what the type
is assignable to, and so to itself. Any other name is assignable to the root alone. The same holds
of objects whose types are given by such names. -/
theorem tested_as_type_iff (history : History) (name full : String)
    (h : history.memo.catalog.resolve? name = some full) :
    (∀ source, history.answer (.isAssignable source name) =
      history.answer (.isAssignable source full)) ∧
    ((∀ target, history.answer (.isAssignable name target) =
      history.answer (.isAssignable full target)) ↔ name = full ∨ full = rootType) ∧
    (history.answer (.isAssignable name name) = .decided true ↔ name = full ∨ full = rootType) ∧
    (name ≠ full → ∀ target, history.answer (.isAssignable name target) =
      .decided (history.memo.catalog.resolve? target == some rootType)) ∧
    ∀ o o' : Object, o.typeName = name → o'.typeName = full →
      ((∀ target, history.answer (.isInstance o.toValue target) =
        history.answer (.isInstance o'.toValue target)) ↔ name = full ∨ full = rootType) := by
  have hself : name ≠ full →
      (history.answer (.isAssignable name name) = .decided true ↔ full = rootType) := by
    intro hne
    rw [answer_of_ne h hne, h, Answer.decided.injEq, beq_iff_eq, Option.some_inj]
  have hall : (∀ target, history.answer (.isAssignable name target) =
      history.answer (.isAssignable full target)) ↔ name = full ∨ full = rootType := by
    constructor
    · intro heq
      by_cases hne : name = full
      · exact .inl hne
      · exact .inr ((hself hne).mp ((heq name).trans (answer_full h)))
    · rintro (rfl | rfl) target
      · rfl
      · by_cases hne : name = rootType
        · rw [hne]
        · rw [answer_of_ne h hne, answer_rootType]
  refine ⟨fun source => ?_, hall, ?_, answer_of_ne h, fun o o' ho ho' => ?_⟩
  · have hfull := resolve?_of_isKnown (isKnown_of_resolve? h)
    rw [answer_isAssignable, answer_isAssignable, resolveOrSelf, resolveOrSelf, h, hfull]
    rfl
  · by_cases hne : name = full
    · subst hne
      exact iff_of_true (answer_full h) (.inl rfl)
    · rw [hself hne, or_iff_right hne]
  · simp only [answer_isInstance, ho, ho']
    exact hall

/-- A type that is registered, and an import of it. -/
def imported : History :=
  [.addImport "B" "a.A", .register ⟨"a.A", none, [], none, []⟩]

theorem tested_as_type_iff_imported :
    imported.memo.catalog.resolve? "B" = some "a.A" ∧
    (∀ source, imported.answer (.isAssignable source "B") =
      imported.answer (.isAssignable source "a.A")) ∧
    imported.answer (.isAssignable "B" "Object") = .decided true := by
  have h : imported.memo.catalog.resolve? "B" = some "a.A" := by cbv
  obtain ⟨htarget, -, -, hother, -⟩ := tested_as_type_iff imported "B" "a.A" h
  refine ⟨h, htarget, ?_⟩
  rw [hother (by decide) "Object"]
  cbv

/-- Neither its import nor its simple name is assignable to the type, nor to itself. -/
theorem imported_not_assignable :
    imported.memo.catalog.resolve? "B" = some "a.A" ∧
      imported.answer (.isAssignable "a.A" "B") = .decided true ∧
      imported.answer (.isAssignable "B" "a.A") = .decided false ∧
      imported.answer (.isAssignable "B" "B") = .decided false ∧
      imported.answer (.isAssignable "A" "A") = .decided false := by
  refine ⟨?_, ?_, ?_, ?_, ?_⟩ <;> cbv

end History

end MemoCatalog

end ObjectQuery
