import Mathlib
import ObjectQuery.Proofs.Number.Decimal
import ObjectQuery.Proofs.Value.Description

/-!
Strict equality as what tells values apart. It is transitive where a name stands for one object, and
between values that are made separately it does not matter in which order they are made.
-/

namespace ObjectQuery

theorem Binary.beq_trans {f : BinaryFormat} {x y z : Binary f} (hxy : x.beq y) (hyz : y.beq z) :
    x.beq z := by
  have hrank {a b : Binary f} : a.beq b ↔ ∃ n, a.rank? = some n ∧ b.rank? = some n := by
    rw [beq, compare?]
    cases a.rank? with
    | none => simp
    | some m =>
      cases b.rank? with
      | none => simp
      | some n =>
        change (some (compare m n) == some .eq) ↔ _
        rw [beq_iff_eq, Option.some_inj, compare_eq_iff_eq]
        constructor
        · rintro rfl
          exact ⟨m, rfl, rfl⟩
        · rintro ⟨k, hm, hn⟩
          exact Option.some.inj (hm.trans hn.symm)
  rw [hrank] at hxy hyz ⊢
  obtain ⟨m, hx, hy⟩ := hxy
  obtain ⟨n, hy', hz⟩ := hyz
  obtain rfl := Option.some.inj (hy.symm.trans hy')
  exact ⟨m, hx, hz⟩

namespace Value

/-! ### Transitivity -/

theorem strictEqList_trans {as bs cs : List Value}
    (h : ∀ a ∈ as, ∀ b ∈ bs, ∀ c ∈ cs, a.strictEq b → b.strictEq c → a.strictEq c)
    (hab : strictEqList as bs) (hbc : strictEqList bs cs) : strictEqList as cs := by
  induction as generalizing bs cs with
  | nil =>
    cases bs with
    | nil => exact hbc
    | cons b bs => cases hab
  | cons a as ih =>
    cases bs with
    | nil => cases hab
    | cons b bs =>
      cases cs with
      | nil => cases hbc
      | cons c cs =>
        simp only [strictEqList, Bool.and_eq_true] at hab hbc ⊢
        exact ⟨h a (by simp) b (by simp) c (by simp) hab.1 hbc.1,
          ih (fun a ha b hb c hc => h a (by simp [ha]) b (by simp [hb]) c (by simp [hc])) hab.2
            hbc.2⟩

theorem strictEqEntries_eq (as bs : List (Value × Value)) :
    strictEqEntries as bs = (strictEqList (as.map (·.1)) (bs.map (·.1)) &&
      strictEqList (as.map (·.2)) (bs.map (·.2))) := by
  induction as generalizing bs with
  | nil => cases bs <;> rfl
  | cons a as ih =>
    cases bs with
    | nil => rfl
    | cons b bs =>
      simp only [strictEqEntries, List.map_cons, strictEqList, ih]
      ac_rfl

theorem strictEq_trans {kinds : Kinds} {a b c : Value} (ha : a.Described kinds)
    (hb : b.Described kinds) (hc : c.Described kinds) (hab : a.strictEq b) (hbc : b.strictEq c) :
    a.strictEq c := by
  induction ha generalizing b c with
  | @node a hself hbelow ih =>
    cases a with
    | array items | list items | set items =>
      cases b <;> first | cases hab | skip
      cases c <;> first | cases hbc | skip
      exact strictEqList_trans (fun a ha b hb' c hc' => ih a ha (hb.child b hb') (hc.child c hc'))
        hab hbc
    | map entries =>
      cases b <;> first | cases hab | skip
      cases c <;> first | cases hbc | skip
      rw [strictEq, strictEqEntries_eq, Bool.and_eq_true] at hab hbc ⊢
      constructor
      · exact strictEqList_trans (fun a ha b hb' c hc' =>
          ih a (List.mem_append_left _ ha) (hb.child b (List.mem_append_left _ hb'))
            (hc.child c (List.mem_append_left _ hc'))) hab.1 hbc.1
      · exact strictEqList_trans (fun a ha b hb' c hc' =>
          ih a (List.mem_append_right _ ha) (hb.child b (List.mem_append_right _ hb'))
            (hc.child c (List.mem_append_right _ hc'))) hab.2 hbc.2
    | object id typeName fields identity =>
      cases b <;> first | cases hab | skip
      cases c <;> first | cases hbc | skip
      rename_i id' typeName' fields' identity' id'' typeName'' fields'' identity''
      have hself' : kinds id' = some (typeName', identity') := hb.self
      have hself'' : kinds id'' = some (typeName'', identity'') := hc.self
      simp only [strictEq, Bool.or_eq_true, Bool.and_eq_true, beq_iff_eq] at hab hbc ⊢
      rcases hab with rfl | ⟨rfl, hab⟩
      · -- The first two are one object.
        obtain ⟨rfl, rfl⟩ := Prod.mk.inj (Option.some.inj (Eq.trans (Eq.symm hself) hself'))
        exact hbc
      · rcases hbc with rfl | ⟨rfl, hbc⟩
        · obtain ⟨rfl, rfl⟩ := Prod.mk.inj (Option.some.inj (Eq.trans (Eq.symm hself') hself''))
          exact .inr ⟨rfl, hab⟩
        · refine .inr ⟨rfl, ?_⟩
          cases identity <;> cases identity' <;> first | cases hab | skip
          cases identity'' <;> first | cases hbc | skip
          exact ih _ (by simp [children]) (hb.child _ (by simp [children]))
            (hc.child _ (by simp [children])) hab hbc
    | float x | double x =>
      cases b <;> first | cases hab | skip
      cases c <;> first | cases hbc | skip
      exact Binary.beq_trans hab hbc
    | decimal d =>
      cases b <;> first | cases hab | skip
      cases c <;> first | cases hbc | skip
      exact Decimal.beq_iff.mpr ((Decimal.beq_iff.mp hab).trans (Decimal.beq_iff.mp hbc))
    | _ =>
      cases b <;> first | cases hab | skip
      cases c <;> first | cases hbc | skip
      simp_all [strictEq]

/-! ### Other names on either side -/

/-- An object has a name as told. -/
def NamedBy (p : InstanceId → Prop) : Value → Prop
  | object id _ _ _ => p id
  | _ => True

theorem children_rename (ρ : InstanceId → InstanceId) (value : Value) :
    (value.rename ρ).children = value.children.map (.rename ρ) := by
  cases value with
  | object id typeName fields identity =>
    cases identity <;> simp [rename, children, Function.comp_def]
  | _ => simp [rename, children, Function.comp_def]

theorem all_namedBy_of_rename_eq {ρ : InstanceId → InstanceId} {value : Value}
    (h : value.rename ρ = value) : value.All (NamedBy fun id => ρ id = id) := by
  induction value using induction_children with
  | step value ih =>
    have hchildren : value.children.map (.rename ρ) = value.children.map id := by
      rw [← children_rename, h, List.map_id]
    refine ⟨?_, fun child hchild => ih child hchild (List.map_inj_left.mp hchildren child hchild)⟩
    cases value with
    | object id typeName fields identity =>
      rw [rename] at h
      exact (object.inj h).1
    | _ => trivial

theorem strictEqList_map_map {f f' g g' : Value → Value} {as bs : List Value}
    (h : ∀ a ∈ as, ∀ b ∈ bs, (f a).strictEq (g b) = (f' a).strictEq (g' b)) :
    strictEqList (as.map f) (bs.map g) = strictEqList (as.map f') (bs.map g') := by
  rw [Bool.eq_iff_iff]
  simp only [strictEqList_iff, List.forall₂_map_left_iff, List.forall₂_map_right_iff]
  exact forall₂_congr_of_mem fun a ha b hb => by rw [h a ha b hb]

/-- Two values are renamed on their own. Whether they are strictly equal shows no more of the names
than which ones on one side become the same as which on the other. -/
theorem strictEq_rename_rename {p q : InstanceId → Prop} {ρ σ ρ' σ' : InstanceId → InstanceId}
    {left right : Value} (hleft : left.All (NamedBy p)) (hright : right.All (NamedBy q))
    (h : ∀ id id', p id → q id' → (ρ id = σ id' ↔ ρ' id = σ' id')) :
    (left.rename ρ).strictEq (right.rename σ) = (left.rename ρ').strictEq (right.rename σ') := by
  induction hleft generalizing right with
  | @node left hself hbelow ih =>
    have hlists : ∀ as ⊆ left.children, ∀ bs ⊆ right.children,
        strictEqList (as.map (.rename ρ)) (bs.map (.rename σ)) =
          strictEqList (as.map (.rename ρ')) (bs.map (.rename σ')) := fun as has bs hbs =>
      strictEqList_map_map fun a ha b hb => ih a (has ha) (hright.child b (hbs hb))
    cases left with
    | array items | list items | set items =>
      cases right <;> first | rfl | skip
      simp only [rename, renameList_eq_map, strictEq]
      exact hlists _ (List.Subset.refl _) _ (List.Subset.refl _)
    | map entries =>
      cases right <;> first | rfl | skip
      rename_i entries'
      have hkeys := hlists (entries.map (·.1)) (List.subset_append_left _ _) (entries'.map (·.1))
        (List.subset_append_left _ _)
      have hvalues := hlists (entries.map (·.2)) (List.subset_append_right _ _)
        (entries'.map (·.2)) (List.subset_append_right _ _)
      simp only [List.map_map] at hkeys hvalues
      simp only [rename, renameEntries_eq_map, strictEq, strictEqEntries_eq, List.map_map]
      exact congrArg₂ _ hkeys hvalues
    | object id typeName fields identity =>
      cases right <;> first | rfl | skip
      rename_i id' typeName' fields' identity'
      have hid : (ρ id == σ id') = (ρ' id == σ' id') := by
        rw [Bool.eq_iff_iff, beq_iff_eq, beq_iff_eq]
        exact h id id' hself hright.self
      have hidentity : strictEqIdentity (identity.map (rename ρ)) (identity'.map (rename σ)) =
          strictEqIdentity (identity.map (rename ρ')) (identity'.map (rename σ')) := by
        cases identity with
        | none => cases identity' <;> rfl
        | some a =>
          cases identity' with
          | none => rfl
          | some b => exact ih a (by simp [children]) (hright.child b (by simp [children]))
      simp only [rename, renameOption_eq_map, strictEq, hid, hidentity]
    | _ => cases right <;> rfl

end Value

end ObjectQuery
