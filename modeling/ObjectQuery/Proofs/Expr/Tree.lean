import ObjectQuery.Cursor.Selection

/-!
The nodes of an expression tree, and what a tree shows of all its nodes.
-/

namespace ObjectQuery

namespace Expr

/-- The expressions right below a node. -/
def children : Expr → List Expr
  | literal _ | parameter _ | var _ => []
  | path qualifier _ => qualifier.toList
  | binary _ left right => [left, right]
  | unary _ operand => [operand]
  | invoke receiver _ args _ => receiver.toList ++ args
  | creator _ args => args
  | conditional branches otherwise =>
    branches.flatMap (fun branch => [branch.1, branch.2]) ++ otherwise.toList
  | array elements => elements

theorem sizeOf_lt_of_mem_toList {e : Expr} {option : Option Expr} (h : e ∈ option.toList) :
    sizeOf e < sizeOf option := by
  obtain rfl : option = some e := by simpa using h
  simp

theorem sizeOf_lt_of_mem_children {e child : Expr} (h : child ∈ e.children) :
    sizeOf child < sizeOf e := by
  cases e with
  | literal value => simp [children] at h
  | parameter name => simp [children] at h
  | var name => simp [children] at h
  | path qualifier segments =>
    have := sizeOf_lt_of_mem_toList h
    simp only [path.sizeOf_spec]
    omega
  | binary op left right =>
    have h : child = left ∨ child = right := by simpa [children] using h
    simp only [binary.sizeOf_spec]
    rcases h with rfl | rfl <;> omega
  | unary op operand =>
    obtain rfl := List.mem_singleton.mp h
    simp only [unary.sizeOf_spec]
    omega
  | invoke receiver method args receiverType =>
    simp only [invoke.sizeOf_spec]
    rcases List.mem_append.mp h with h | h
    · have := sizeOf_lt_of_mem_toList h
      omega
    · have := List.sizeOf_lt_of_mem h
      omega
  | creator typeName args =>
    have hlt : sizeOf child < sizeOf args := List.sizeOf_lt_of_mem h
    simp only [creator.sizeOf_spec]
    omega
  | conditional branches otherwise =>
    simp only [conditional.sizeOf_spec]
    rcases List.mem_append.mp h with h | h
    · obtain ⟨⟨condition, value⟩, hbranch, h⟩ := List.mem_flatMap.mp h
      have := List.sizeOf_lt_of_mem hbranch
      simp only [Prod.mk.sizeOf_spec] at this
      have h : child = condition ∨ child = value := by simpa using h
      rcases h with rfl | rfl <;> omega
    · have := sizeOf_lt_of_mem_toList h
      omega
  | array elements =>
    have hlt : sizeOf child < sizeOf elements := List.sizeOf_lt_of_mem h
    simp only [array.sizeOf_spec]
    omega

theorem induction_children {motive : Expr → Prop}
    (step : ∀ e, (∀ child ∈ e.children, motive child) → motive e) (e : Expr) : motive e :=
  step e fun child hchild =>
    have := sizeOf_lt_of_mem_children hchild
    induction_children step child
termination_by e

/-- All nodes of a tree are as told. -/
inductive All (p : Expr → Prop) : Expr → Prop where
  | node {e : Expr} (self : p e) (below : ∀ child ∈ e.children, All p child) : All p e

namespace All

variable {p q : Expr → Prop} {e : Expr}

theorem self (h : e.All p) : p e := by
  obtain ⟨hself, _⟩ := h
  exact hself

theorem child (h : e.All p) : ∀ child ∈ e.children, child.All p := by
  obtain ⟨_, hbelow⟩ := h
  exact hbelow

theorem imp (hpq : ∀ e, p e → q e) (h : e.All p) : e.All q := by
  induction h with
  | node hself _ ih => exact ⟨hpq _ hself, ih⟩

theorem and (hp : e.All p) (hq : e.All q) : e.All fun node => p node ∧ q node := by
  induction hp with
  | node hself _ ih =>
    exact ⟨⟨hself, hq.self⟩, fun child hchild => ih child hchild (hq.child child hchild)⟩

end All

theorem all_iff {p : Expr → Prop} {e : Expr} :
    e.All p ↔ p e ∧ ∀ child ∈ e.children, child.All p :=
  ⟨fun h => ⟨h.self, h.child⟩, fun h => ⟨h.1, h.2⟩⟩

end Expr

namespace Cursor

theorem listVariableNames_eq_flatMap (es : List Expr) :
    listVariableNames es = es.flatMap variableNames := by
  induction es with
  | nil => rfl
  | cons e rest ih => simp [listVariableNames, ih]

theorem optionVariableNames_eq_flatMap (e : Option Expr) :
    optionVariableNames e = e.toList.flatMap variableNames := by
  cases e <;> simp [optionVariableNames]

theorem branchVariableNames_eq_flatMap (branches : List (Expr × Expr)) :
    branchVariableNames branches =
      (branches.flatMap fun branch => [branch.1, branch.2]).flatMap variableNames := by
  induction branches with
  | nil => rfl
  | cons branch rest ih => simp [branchVariableNames, ih]

theorem variableNames_of_mem_children {e child : Expr} (h : child ∈ e.children) :
    variableNames child ⊆ variableNames e := by
  have heq : variableNames e = e.children.flatMap variableNames := by
    cases e <;> simp_all [Expr.children, variableNames, listVariableNames_eq_flatMap,
      optionVariableNames_eq_flatMap, branchVariableNames_eq_flatMap]
  intro name hname
  rw [heq]
  exact List.mem_flatMap.mpr ⟨child, h, hname⟩

end Cursor

namespace Expr

theorem all_variableNames (e : Expr) :
    e.All fun node => ∀ name, node = var name → name ∈ Cursor.variableNames e := by
  have hsub : ∀ names : List String, Cursor.variableNames e ⊆ names →
      e.All fun node => ∀ name, node = var name → name ∈ names := by
    induction e using induction_children with
    | step e ih =>
      intro names hnames
      refine ⟨?_, fun child hchild => ih child hchild names ?_⟩
      · rintro name rfl
        exact hnames (by simp [Cursor.variableNames])
      · exact fun name hname => hnames (Cursor.variableNames_of_mem_children hchild hname)
  exact hsub _ (List.Subset.refl _)

/-! ### Aggregates -/

/-- A call of an aggregate's name that has no receiver, whatever its arguments are. -/
def namesAggregate : Expr → Bool
  | invoke receiver method _ _ => isAggregateCall receiver method
  | _ => false

/-- An aggregate is such a call on one argument. -/
def isAggregate : Expr → Bool
  | invoke none method [_] _ => (AggregateKind.ofName? method).isSome
  | _ => false

theorem anyContainsAggregate_eq_any (es : List Expr) :
    anyContainsAggregate es = es.any containsAggregate := by
  induction es with
  | nil => rfl
  | cons e rest ih => rw [anyContainsAggregate, List.any_cons, ih]

theorem optionContainsAggregate_eq_any (e : Option Expr) :
    optionContainsAggregate e = e.toList.any containsAggregate := by
  cases e <;> simp [optionContainsAggregate]

theorem branchesContainAggregate_eq_any (branches : List (Expr × Expr)) :
    branchesContainAggregate branches =
      (branches.flatMap fun branch => [branch.1, branch.2]).any containsAggregate := by
  induction branches with
  | nil => rfl
  | cons branch rest ih => simp [branchesContainAggregate, ih, Bool.or_assoc]

theorem containsAggregate_eq (e : Expr) :
    e.containsAggregate = (e.namesAggregate || e.children.any containsAggregate) := by
  cases e <;> simp [containsAggregate, namesAggregate, children, anyContainsAggregate_eq_any,
    optionContainsAggregate_eq_any, branchesContainAggregate_eq_any, Bool.or_assoc]

/-- What a tree shows of aggregates is whether a node calls the name of one. -/
theorem containsAggregate_eq_false_iff (e : Expr) :
    e.containsAggregate = false ↔ e.All fun node => node.namesAggregate = false := by
  induction e using induction_children with
  | step e ih =>
    rw [containsAggregate_eq, Bool.or_eq_false_iff, List.any_eq_false]
    constructor
    · rintro ⟨hself, hbelow⟩
      exact ⟨hself, fun child hchild => (ih child hchild).mp (by simpa using hbelow child hchild)⟩
    · rintro ⟨hself, hbelow⟩
      exact ⟨hself, fun child hchild => by simpa using (ih child hchild).mpr (hbelow child hchild)⟩

end Expr

end ObjectQuery
