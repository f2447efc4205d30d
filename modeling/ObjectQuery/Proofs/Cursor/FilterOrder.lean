import ObjectQuery.Proofs.Evaluation.Comparison

/-!
The order in which filters compare numbers beside the order in which they are sorted. Main
statement: for numbers other than not-a-number the two are one order exactly if no infinity stands
beside an integer or a decimal. Then filters have no order, but sorting has.
-/

namespace ObjectQuery

namespace Value

/-- A number other than not-a-number. -/
structure IsOrderable (value : Value) : Prop where
  isNumeric : value.isNumeric
  ne_nan : value.binary? ≠ some .nan

/-- An integer or a decimal beside an infinity. -/
def BesideInfinity (exact other : Value) : Prop :=
  exact.IsExact ∧ ∃ negative, other.binary? = some (.infinite negative)

/-- One of two numbers is an integer or a decimal, and the other one is an infinity. -/
def Clash (a b : Value) : Prop := BesideInfinity a b ∨ BesideInfinity b a

variable {a b : Value} {negative : Bool}

theorem IsOrderable.compare?_isSome (ha : a.IsOrderable) (hb : b.IsOrderable)
    (hclash : ¬ Clash a b) : (a.compare? b).isSome := by
  obtain ⟨hab, hba⟩ := not_or.mp hclash
  exact comparable_of_isNumeric ha.isNumeric hb.isNumeric ha.ne_nan hb.ne_nan
    (fun hexact negative hinfinite => hab ⟨hexact, negative, hinfinite⟩)
    fun hexact negative hinfinite => hba ⟨hexact, negative, hinfinite⟩

theorem BesideInfinity.compareNumbers?_eq_none (h : BesideInfinity a b) :
    a.compareNumbers? b = none := by
  obtain ⟨hexact, negative, hinfinite⟩ := h
  exact SortKey.compareNumbers?_eq_none_of_infinite hexact hinfinite

theorem Clash.compareNumbers?_eq_none (h : Clash a b) : a.compareNumbers? b = none := by
  rcases h with hab | hba
  · exact hab.compareNumbers?_eq_none
  · rw [compareNumbers?_swap b a, hba.compareNumbers?_eq_none]
    rfl

end Value

namespace SortKey

open Value

variable {env : Environment} {context : Context} {left right : Expr} {a b : Value} {negative : Bool}

/-! ### The order of sorting beside an infinity -/

theorem totalOrder_of_isNumeric (ha : a.isNumeric) (hb : b.isNumeric) :
    totalOrder a b = numericOrder a b := by
  rw [totalOrder_eq_then, kindOrder, kindRank_eq_zero_iff.mpr ha, kindRank_eq_zero_iff.mpr hb]
  rfl

theorem totalOrder_infinite (ha : a.IsExact) (hb : b.binary? = some (.infinite negative)) :
    totalOrder a b = ((a.toDouble?.getD .nan).compare? (.infinite negative)).getD .gt := by
  have hbNumeric : b.isNumeric := by
    cases b <;> first | rfl | cases hb
  have hnan : (Binary.infinite negative : Double).isNan = false := rfl
  rw [totalOrder_of_isNumeric ha.1 hbNumeric, numericOrder,
    compareNumbers?_eq_none_of_infinite ha hb, toDouble?_of_binary? hb]
  simp only [Option.getD_some, hnan]
  cases a.toDouble?.getD .nan with
  | nan => rfl
  | infinite s => rw [Binary.compare?_infinite_infinite]; rfl
  | finite s m hm => rw [Binary.compare?_infinite rfl]; rfl

theorem totalOrder_infinite_eq_iff (ha : a.IsExact) (hb : b.binary? = some (.infinite negative)) :
    totalOrder a b = .eq ↔ a.toDouble? = some (.infinite negative) := by
  have hnan : (Binary.nan : Double).compare? (.infinite negative) = none := rfl
  rw [totalOrder_infinite ha hb]
  cases a.toDouble? with
  | none =>
    rw [Option.getD_none, hnan]
    exact iff_of_false nofun nofun
  | some x =>
    rw [Option.getD_some]
    cases x with
    | nan =>
      rw [hnan]
      exact iff_of_false nofun nofun
    | infinite s =>
      rw [Binary.compare?_infinite_infinite]
      cases s <;> cases negative <;>
        first | exact iff_of_true rfl rfl | exact iff_of_false (by decide) nofun
    | finite s m hm =>
      rw [Binary.compare?_infinite rfl]
      cases negative <;> exact iff_of_false (by decide) nofun

/-! ### Filters -/

/-- Filters put two operands in the order in which their values are sorted. -/
structure SameOrder (env : Environment) (context : Context) (left right : Expr) (a b : Value) :
    Prop where
  lt : (Expr.binary .lt left right).Evaluates env context (.ofBool (totalOrder a b == .lt))
  eq : (Expr.binary .eq left right).Evaluates env context (.ofBool (totalOrder a b == .eq))

section Operands

variable (hleft : left.Evaluates env context (.value a))
  (hright : right.Evaluates env context (.value b))

include hleft hright

theorem sameOrder_of_compare? (h : (a.compare? b).isSome) :
    SameOrder env context left right a b := by
  obtain ⟨order, horder⟩ := Option.isSome_iff_exists.mp h
  have hfits := Expr.ordered_of_compare? hleft hright horder
  rw [← totalOrder_of_compare? horder] at hfits
  exact ⟨hfits.evaluates .lt rfl, hfits.evaluates .eq rfl⟩

theorem evaluates_of_clash (ha : a.isNumeric) (hb : b.isNumeric) (hclash : Clash a b) :
    (Expr.binary .lt left right).Evaluates env context .unresolved ∧
      (Expr.binary .eq left right).Evaluates env context (.ofBool false) := by
  have hnone : a.compare? b = none := by
    rw [compare?_of_isNumeric ha hb, hclash.compareNumbers?_eq_none]
  have hunequal : a.looseEq b = false := by
    rw [looseEq_eq_compareNumbers? ha hb, hclash.compareNumbers?_eq_none]
    rfl
  have heq : (Expr.binary .eq left right).Evaluates env context (.ofBool (a.looseEq b)) :=
    .comparison rfl hleft hright
  rw [hunequal] at heq
  exact ⟨(Expr.unordered_of_compare? hleft hright hnone .lt (by decide)).1, heq⟩

end Operands

/-- Filters order numbers other than not-a-number as they are sorted, exactly if they are not an
infinity and an integer or a decimal. Of these filters call none less and the two unequal, whereas
sorting places the finite ones by the sign of the infinity, and lets those tie with it that as
doubles are the same infinity. -/
theorem filter_order_eq_sort_order_iff (hleft : left.Evaluates env context (.value a))
    (hright : right.Evaluates env context (.value b)) (ha : a.IsOrderable) (hb : b.IsOrderable) :
    (SameOrder env context left right a b ↔ ¬ Clash a b) ∧
    (Clash a b → (Expr.binary .lt left right).Evaluates env context .unresolved ∧
      (Expr.binary .eq left right).Evaluates env context (.ofBool false)) ∧
    ∀ negative, a.IsExact → b.binary? = some (.infinite negative) →
      ((a.toDouble?.getD .nan).isFinite → totalOrder a b = if negative then .gt else .lt) ∧
      (totalOrder a b = .eq ↔ a.toDouble? = some (.infinite negative)) := by
  refine ⟨⟨fun hsame hclash => ?_, fun hclash => ?_⟩, ?_, fun negative hexact hinfinite => ⟨?_, ?_⟩⟩
  · have hlt := (evaluates_of_clash hleft hright ha.isNumeric hb.isNumeric hclash).1
    cases hlt.unique hsame.lt
  · exact sameOrder_of_compare? hleft hright (ha.compare?_isSome hb hclash)
  · exact evaluates_of_clash hleft hright ha.isNumeric hb.isNumeric
  · intro hfinite
    rw [totalOrder_infinite hexact hinfinite, Binary.compare?_infinite hfinite]
    rfl
  · exact totalOrder_infinite_eq_iff hexact hinfinite

theorem filter_order_eq_sort_order_iff_integers :
    let env : Environment := ⟨.empty, .empty, .detached⟩
    let context : Context := .ofParameters "this" [("limit", .bigInteger 2)]
    (Expr.literal (.int 1)).Evaluates env context (.value (.int 1)) ∧
      (Expr.parameter "limit").Evaluates env context (.value (.bigInteger 2)) ∧
      (Value.int 1).IsOrderable ∧ (Value.bigInteger 2).IsOrderable ∧
      SameOrder env context (Expr.literal (.int 1)) (Expr.parameter "limit") (.int 1)
        (.bigInteger 2) := by
  intro env context
  have hone : (Expr.literal (.int 1)).Evaluates env context (.value (.int 1)) :=
    Expr.evaluates_literal _
  have hlimit : (Expr.parameter "limit").Evaluates env context (.value (.bigInteger 2)) :=
    Expr.evaluates_parameter "limit"
  have hleft : (Value.int 1).IsOrderable := ⟨rfl, nofun⟩
  have hright : (Value.bigInteger 2).IsOrderable := ⟨rfl, nofun⟩
  have hclash : ¬ Clash (.int 1) (.bigInteger 2) := by
    rintro (⟨-, negative, h⟩ | ⟨-, negative, h⟩) <;> cases h
  exact ⟨hone, hlimit, hleft, hright,
    (filter_order_eq_sort_order_iff hone hlimit hleft hright).1.mpr hclash⟩

/-- One is sorted before infinity, but no filter finds it less. -/
theorem one_beside_infinity :
    let env : Environment := ⟨.empty, .empty, .detached⟩
    let one : Expr := Expr.literal (.int 1)
    let infinity : Expr := Expr.literal (.double (.infinite false))
    totalOrder (.int 1) (.double (.infinite false)) = .lt ∧
      (Expr.binary .lt one infinity).Evaluates env default .unresolved := by
  intro env one infinity
  have hclash : Clash (.int 1) (.double (.infinite false)) := .inl ⟨⟨rfl, rfl⟩, false, rfl⟩
  have hone : one.Evaluates env default (.value (.int 1)) := Expr.evaluates_literal _
  have hinfinity : infinity.Evaluates env default (.value (.double (.infinite false))) :=
    Expr.evaluates_literal _
  exact ⟨by decide +kernel, (evaluates_of_clash hone hinfinity rfl rfl hclash).1⟩

end SortKey

end ObjectQuery
