import Mathlib.Logic.Equiv.Basic
import ObjectQuery.Proofs.Evaluation.Expression

/-!
The objects that a stage makes are others than those that it is given. So it does not matter which
names they get.
-/

namespace ObjectQuery

/-- A value that holds no object made by the stage. -/
inductive Value.Elsewhere (stage : Nat) : Value → Prop where
  | intro {value : Value}
    (id : ∀ id typeName fields identity, value = object id typeName fields identity →
      id.stage ≠ stage)
    (children : ∀ child ∈ value.children, Elsewhere stage child) : Elsewhere stage value

/-- Other names for the objects of a stage alone. -/
def InstanceId.Renames (stage : Nat) (ρ : InstanceId → InstanceId) : Prop :=
  Function.Injective ρ ∧ ∀ id : InstanceId, id.stage ≠ stage → ρ id = id

theorem Value.Elsewhere.rename_eq {stage : Nat} {value : Value} (h : value.Elsewhere stage)
    {ρ : InstanceId → InstanceId} (hρ : InstanceId.Renames stage ρ) : value.rename ρ = value := by
  induction h with
  | intro hid _ ih =>
    exact rename_eq_self ρ (fun id typeName fields identity h => hρ.2 id (hid _ _ _ _ h)) ih

theorem Value.elsewhere_null (stage : Nat) : Value.null.Elsewhere stage :=
  .intro (by simp) (by simp [children])

/-- What evaluations read holds no object made by the stage and does not depend on their names. -/
def Environment.Elsewhere (env : Environment) (stage : Nat) : Prop :=
  ∀ ρ, InstanceId.Renames stage ρ → env.Respects ρ

theorem Environment.Elsewhere.evaluatesArguments {env : Environment} {stage : Nat}
    (h : env.Elsewhere stage) : env.registry.EvaluatesArguments :=
  (h id ⟨Function.injective_id, fun _ _ => rfl⟩).evaluatesArguments

/-- The values that an expression gives itself hold no object made by the stage. -/
def Expr.Elsewhere (e : Expr) (stage : Nat) : Prop :=
  e.All fun node => ∀ value, node = literal value → value.Elsewhere stage

namespace InstanceId

/-- The names that objects of a stage have if its first turn is another one, and if others are made
before them. -/
def shift (stage turn made : Nat) (id : InstanceId) : InstanceId :=
  if id.stage = stage then ⟨stage, Equiv.swap 0 turn id.turn, id.serial + made⟩ else id

theorem shift_injective (stage turn made : Nat) : Function.Injective (shift stage turn made) := by
  rintro ⟨s, t, n⟩ ⟨s', t', n'⟩ h
  by_cases hs : s = stage <;> by_cases hs' : s' = stage
  · simp only [shift, hs, hs', if_true, mk.injEq, true_and, Nat.add_right_cancel_iff] at h
    simp [hs, hs', (Equiv.swap 0 turn).injective h.1, h.2]
  · simp only [shift, hs, hs', if_true, if_false, mk.injEq] at h
    exact absurd h.1.symm hs'
  · simp only [shift, hs, hs', if_true, if_false, mk.injEq] at h
    exact h.1.elim
  · simpa only [shift, hs, hs', if_false] using h

theorem renames_shift (stage turn made : Nat) : Renames stage (shift stage turn made) :=
  ⟨shift_injective stage turn made, fun _ h => if_neg h⟩

end InstanceId

namespace Agreement

/-- Equality up to the names of the objects that a stage makes. -/
def shifting (stage turn made : Nat) (met : String → Prop) : Agreement :=
  ⟨InstanceId.shift stage turn made, InstanceId.shift_injective stage turn made, met, True⟩

variable {stage turn made : Nat} {met : String → Prop}

theorem shifting_supplies (stage turn made other : Nat) (met : String → Prop) :
    (shifting stage turn made met).Supplies ⟨stage, other, 0⟩
      (InstanceId.advance ⟨stage, Equiv.swap 0 turn other, 0⟩ made) := by
  intro more
  simp [shifting, InstanceId.shift, InstanceId.advance, Nat.add_comm]

theorem admits_shifting {e : Expr} (h : e.Elsewhere stage)
    (hvariables : ∀ name ∈ Cursor.variableNames e, met name) :
    e.All (shifting stage turn made met).Admits :=
  admits_of_rename_eq (h.imp fun _ hnode value hvalue =>
    (hnode value hvalue).rename_eq (InstanceId.renames_shift _ _ _)) hvariables trivial

end Agreement

end ObjectQuery
