import Mathlib
import ObjectQuery.Proofs.Evaluation.Sequence
import ObjectQuery.Proofs.Value.Strict

/-!
The objects that evaluations make for themselves. Main statement: whatever was made before, an
evaluation comes to the same up to the names of its own objects, and these are among as many names
as it makes objects. So it does not matter to an equality between the results of two evaluations how
much was made before either of them.
-/

namespace ObjectQuery

variable {first : InstanceId} {made : Nat} {env : Environment} {context : Context}

namespace InstanceId

/-- The name is none from `first` on, or one of so many. -/
def Within (first : InstanceId) (made : Nat) (id : InstanceId) : Prop :=
  ∀ index, id = first.advance index → index < made

theorem advance_inj {first : InstanceId} {m n : Nat} (h : first.advance m = first.advance n) :
    m = n := by
  simpa [advance] using h

theorem delay_advance_eq_self {index : Nat} (h : index < made) (more : Nat) :
    (first.advance made).delay more (first.advance index) = first.advance index := by
  refine delay_eq_self fun other heq => ?_
  rw [advance_advance] at heq
  have := advance_inj heq
  omega

theorem within_of_delay_eq_self {id : InstanceId} (h : (first.advance made).delay 1 id = id) :
    Within first made id := by
  rintro index rfl
  by_contra hindex
  obtain ⟨more, rfl⟩ := Nat.exists_eq_add_of_le (not_lt.mp hindex)
  rw [← advance_advance, delay_advance, advance_advance, advance_advance, advance_advance] at h
  have := advance_inj h
  omega

theorem delay_eq_delay_iff {a b k l : Nat} {id id' : InstanceId} (hid : Within first a id)
    (hid' : Within first b id') (hapart : k + a ≤ l ∨ l + b ≤ k) :
    first.delay k id = first.delay l id' ↔ id = id' ∧ ∀ index, id ≠ first.advance index := by
  by_cases hnew : ∃ index, id = first.advance index
  · obtain ⟨index, rfl⟩ := hnew
    have hindex := hid index rfl
    rw [delay_advance, advance_advance]
    refine iff_of_false (fun h => ?_) fun h => h.2 index rfl
    by_cases hnew' : ∃ index', id' = first.advance index'
    · obtain ⟨index', rfl⟩ := hnew'
      have hindex' := hid' index' rfl
      rw [delay_advance, advance_advance] at h
      have := advance_inj h
      omega
    · rw [delay_eq_self fun more h => hnew' ⟨more, h⟩] at h
      exact hnew' ⟨_, h.symm⟩
  · have hold : ∀ index, id ≠ first.advance index := fun index h => hnew ⟨index, h⟩
    rw [delay_eq_self hold]
    by_cases hnew' : ∃ index', id' = first.advance index'
    · obtain ⟨index', rfl⟩ := hnew'
      rw [delay_advance, advance_advance]
      exact iff_of_false (hold _) fun h => hold _ h.1
    · rw [delay_eq_self fun more h => hnew' ⟨more, h⟩]
      exact (and_iff_left hold).symm

end InstanceId

open InstanceId

/-- Between the results of two evaluations apart from each other strict equality is the same
wherever they are. -/
theorem Value.strictEq_delay_delay {left right : Value} {a b k l k' l' : Nat}
    (hleft : left.All (NamedBy (Within first a))) (hright : right.All (NamedBy (Within first b)))
    (hapart : k + a ≤ l ∨ l + b ≤ k) (hapart' : k' + a ≤ l' ∨ l' + b ≤ k') :
    (left.rename (first.delay k)).strictEq (right.rename (first.delay l)) =
      (left.rename (first.delay k')).strictEq (right.rename (first.delay l')) :=
  strictEq_rename_rename hleft hright fun _ _ hid hid' => by
    rw [delay_eq_delay_iff hid hid' hapart, delay_eq_delay_iff hid hid' hapart']

/-! ### What was made before is made before what comes later -/

theorem Value.MadeBefore.advance {value : Value} (h : value.MadeBefore first) (made : Nat) :
    value.MadeBefore (first.advance made) := by
  induction h with
  | intro hid _ ih =>
    refine .intro (fun id typeName fields identity h more => ?_) ih
    rw [advance_advance]
    exact hid id typeName fields identity h _

theorem Context.MadeBefore.advance (h : context.MadeBefore first) (made : Nat) :
    context.MadeBefore (first.advance made) where
  parameters name := (h.parameters name).advance made
  state name value hvalue := (h.state name value hvalue).advance made
  assignment name value hvalue := (h.assignment name value hvalue).advance made
  resultSet members hmembers member hmember :=
    (h.resultSet members hmembers member hmember).advance made

theorem Context.MadeBefore.setCandidate (h : context.MadeBefore first) {member : Value}
    (hmember : member.MadeBefore first) : (context.setCandidate member).MadeBefore first where
  parameters := h.parameters
  state name value hvalue := by
    rcases Context.eq_or_mem_of_setCandidate hvalue with rfl | hvalue
    · exact hmember
    · exact h.state name value hvalue
  assignment := h.assignment
  resultSet := h.resultSet

theorem Expr.MadeBefore.advance {e : Expr} (h : e.MadeBefore first) (made : Nat) :
    e.MadeBefore (first.advance made) :=
  h.imp fun _ hnode value hvalue => (hnode value hvalue).advance made

/-- What evaluations read was made before `first`, and so before all later names. -/
def Environment.AlwaysMadeBefore (first : InstanceId) (env : Environment) : Prop :=
  ∀ made, env.MadeBefore (first.advance made)

/-! ### One evaluation -/

namespace Expr

open Agreement

/-- An expression comes to the result and makes so many objects; the more objects were made before,
the later ones these are. -/
structure Shares (env : Environment) (e : Expr) (context : Context) (first : InstanceId)
    (result : Except Halt Operand) (made : Nat) : Prop where
  settles : ∀ before, ∃ trace, Settles (e.result env .operand) context (first.advance before)
    ⟨(delaying first before).image (.rename (first.delay before)) result, context, trace,
      first.advance (before + made)⟩
  within : ∀ value, result = .ok (.value value) → value.All (Value.NamedBy (Within first made))

theorem exists_shares (henv : env.AlwaysMadeBefore first) {e : Expr} (he : e.MadeBefore first)
    (hcontext : context.MadeBefore first) :
    ∃ result made, e.Shares env context first result made := by
  have hagree (before : Nat) := result_agrees (henv 0 before) (admits_delaying he before) .operand
    context context (.delaying hcontext before)
  obtain ⟨result, trace, made, hsettles, -, -⟩ :=
    (hagree 0).settles (delaying_supplies first 0)
  refine ⟨result, made, fun before => ?_, ?_⟩
  · obtain ⟨result', trace', made', hfirst, hsecond, -⟩ :=
      (hagree before).settles (delaying_supplies first before)
    have hsame := hfirst.outcomeOf_eq.symm.trans hsettles.outcomeOf_eq
    injection hsame with hresult _ htrace hsupply
    rw [advance_inj hsupply, hresult, advance_advance] at hsecond
    exact ⟨trace', hsecond⟩
  · rintro value rfl
    -- All later names are moved, and the result stays what it is.
    obtain ⟨result', trace', made', hfirst, hsecond, -⟩ :=
      result_agrees (henv made 1) (admits_delaying (he.advance made) 1) .operand context context
        (.delaying (hcontext.advance made) 1) first first
    have hsame := hfirst.outcomeOf_eq.symm.trans hsettles.outcomeOf_eq
    injection hsame with hresult _ htrace hsupply
    subst hresult
    obtain rfl := advance_inj hsupply
    have hsecond := hsecond fun index hindex => delay_advance_eq_self hindex 1
    have hsame := hsecond.outcomeOf_eq.symm.trans hsettles.outcomeOf_eq
    injection hsame with hresult
    have hvalue : value.rename ((first.advance made').delay 1) = value := by
      simpa [Agreement.image, Operand.rename, delaying] using hresult
    refine (Value.all_namedBy_of_rename_eq hvalue).imp fun part hpart => ?_
    cases part with
    | object id typeName fields identity => exact within_of_delay_eq_self hpart
    | _ => trivial

theorem Shares.resolution_eq {e : Expr} {result : Except Halt Operand}
    (h : e.Shares env context first result made) :
    e.resolution env context first = Resolution.ofResult result := by
  obtain ⟨trace, hsettles⟩ := h.settles 0
  have himage : (delaying first 0).image (Operand.rename (first.delay 0)) result = result := by
    cases result <;> simp [Agreement.image, delaying]
  rw [himage] at hsettles
  exact resolution_of_result hsettles

end Expr

end ObjectQuery
