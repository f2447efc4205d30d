import ObjectQuery.Proofs.Evaluation.Apart
import ObjectQuery.Proofs.Evaluation.Description
import ObjectQuery.Proofs.Evaluation.ResultSet
import ObjectQuery.Proofs.Evaluation.Total

/-!
Counts, and sums of integers, over a result set. Main statement: they are exact, of distinct values
over the first one of each class of equal ones, and they do not depend on the order of the result
set unless the argument takes an aggregate of it itself.
-/

namespace ObjectQuery

variable {first : InstanceId} {env : Environment} {context last : Context}

/-! ### Items in a row -/

section Located

variable {α β : Type} {size : α → Nat}

/-- Items one behind the other, each with where it begins if it takes so much room. -/
def located (size : α → Nat) : Nat → List α → List (α × Nat)
  | _, [] => []
  | start, item :: rest => (item, start) :: located size (start + size item) rest

theorem map_fst_located (size : α → Nat) (start : Nat) (items : List α) :
    (located size start items).map (·.1) = items := by
  induction items generalizing start with
  | nil => rfl
  | cons item rest ih => rw [located, List.map_cons, ih]

theorem located_map (size : β → Nat) (f : α → β) (start : Nat) (items : List α) :
    located size start (items.map f) =
      (located (size ∘ f) start items).map fun place => (f place.1, place.2) := by
  induction items generalizing start with
  | nil => rfl
  | cons item rest ih => simp only [List.map_cons, located, ih, Function.comp_apply]

theorem le_of_mem_located {start : Nat} {items : List α} {place : α × Nat}
    (h : place ∈ located size start items) : start ≤ place.2 := by
  induction items generalizing start with
  | nil => cases h
  | cons item rest ih =>
    rcases List.mem_cons.mp h with rfl | h
    · exact le_rfl
    · exact (Nat.le_add_right _ _).trans (ih h)

theorem pairwise_located (size : α → Nat) (start : Nat) (items : List α) :
    (located size start items).Pairwise fun a b => a.2 + size a.1 ≤ b.2 := by
  induction items generalizing start with
  | nil => exact .nil
  | cons item rest ih => exact .cons (fun _ h => le_of_mem_located h) (ih _)

theorem exists_perm_of_map_perm {f : α → β} {items : List α} {images : List β}
    (h : (items.map f).Perm images) : ∃ items', items.Perm items' ∧ items'.map f = images := by
  have hself : List.Forall₂ (fun image item => image = f item) (items.map f) items :=
    List.forall₂_map_left_iff.mpr (List.forall₂_same.mpr fun _ _ => rfl)
  obtain ⟨items', himages, hitems⟩ := List.perm_comp_forall₂ h.symm hself
  rw [← List.forall₂_map_right_iff, List.forall₂_eq_eq_eq] at himages
  exact ⟨items', hitems.symm, himages.symm⟩

end Located

/-! ### What an aggregate takes -/

/-- What an aggregate takes from one member, and how many objects are made for it. -/
structure Share where
  operand : Operand
  made : Nat

namespace Share

/-- The value of a share behind so many objects. -/
def placed (first : InstanceId) (place : Share × Nat) : Value :=
  place.1.operand.valueOrNull.rename (first.delay place.2)

/-- The values of shares one after another. -/
def values (first : InstanceId) (start : Nat) (shares : List Share) : List Value :=
  ((located made start shares).filter fun place => !place.1.operand.isUnresolved).map (placed first)

theorem values_cons (first : InstanceId) (start : Nat) (share : Share) (rest : List Share) :
    values first start (share :: rest) =
      match share.operand with
      | .value value => value.rename (first.delay start) :: values first (start + share.made) rest
      | .unresolved => values first (start + share.made) rest := by
  obtain ⟨operand, made⟩ := share
  cases operand <;> rfl

/-- All objects made for a share have names of the share. -/
def Within (first : InstanceId) (share : Share) : Prop :=
  share.operand.valueOrNull.All (Value.NamedBy (first.Within share.made))

/-- The values that count, of distinct ones the first of each class. -/
def counted (distinct : Bool) (values : List Value) : List Value :=
  if distinct then distinctValues values else values

theorem strictEq_placed {a b : Share × Nat} {k l : Nat} (ha : a.1.Within first)
    (hb : b.1.Within first) (hapart : a.2 + a.1.made ≤ b.2 ∨ b.2 + b.1.made ≤ a.2)
    (hapart' : k + a.1.made ≤ l ∨ l + b.1.made ≤ k) :
    (placed first a).strictEq (placed first b) =
      (placed first (a.1, k)).strictEq (placed first (b.1, l)) :=
  Value.strictEq_delay_delay ha hb hapart hapart'

theorem counted_placed_map {β : Type} {places : List ((Share × Nat) × Nat)}
    (hwithin : ∀ place ∈ places, place.1.1.Within first)
    (hfirst : places.Pairwise fun a b =>
      a.1.2 + a.1.1.made ≤ b.1.2 ∨ b.1.2 + b.1.1.made ≤ a.1.2)
    (hsecond : places.Pairwise fun a b => a.2 + a.1.1.made ≤ b.2)
    (distinct : Bool) {g : Value → β} (hrename : ∀ ρ value, g (value.rename ρ) = g value) :
    (counted distinct (places.map fun place => placed first (place.1.1, place.2))).map g =
      (counted distinct (places.map fun place => placed first place.1)).map g := by
  have hg : (g ∘ fun place : (Share × Nat) × Nat => placed first (place.1.1, place.2)) =
      g ∘ fun place => placed first place.1 := by
    funext place
    simp only [Function.comp_apply, placed, hrename]
  cases distinct with
  | false => simp only [counted, Bool.false_eq_true, if_false, List.map_map, hg]
  | true =>
    have hequal : places.Pairwise fun a b =>
        (placed first (a.1.1, a.2)).strictEq (placed first (b.1.1, b.2)) =
          (placed first a.1).strictEq (placed first b.1) := by
      refine (hfirst.and hsecond).imp_of_mem fun {a b} ha hb hapart => ?_
      exact (strictEq_placed (hwithin a ha) (hwithin b hb) hapart.1 (.inl hapart.2)).symm
    change ((firstsBy Value.strictEq _).map g) = (firstsBy Value.strictEq _).map g
    rw [firstsBy_map, firstsBy_map, firstsBy_congr hequal, List.map_map, List.map_map, hg]

theorem counted_perm {β : Type} {items items' : List Value} (hperm : items.Perm items')
    {distinct : Bool} (hcoherent : distinct → Value.Coherent items) {g : Value → β}
    (hg : ∀ value other : Value, value.strictEq other → g value = g other) :
    ((counted distinct items).map g).Perm ((counted distinct items').map g) := by
  cases distinct with
  | false => exact hperm.map g
  | true =>
    obtain ⟨kinds, hkinds⟩ := hcoherent rfl
    exact firstsBy_perm hperm (fun a _ b _ => Value.strictEq_comm a b)
      (fun a ha b hb c hc => Value.strictEq_trans (hkinds a ha) (hkinds b hb) (hkinds c hc))
      fun a _ b _ => hg a b

/-- The values that count do not depend on the order of the shares, up to what tells neither names
nor equal values apart. -/
theorem counted_values_perm {β : Type} {shares shares' : List Share} (hperm : shares.Perm shares')
    (hwithin : ∀ share ∈ shares, share.Within first) {distinct : Bool}
    (hcoherent : distinct → Value.Coherent (values first 0 shares)) {g : Value → β}
    (hrename : ∀ ρ value, g (value.rename ρ) = g value)
    (hg : ∀ value other : Value, value.strictEq other → g value = g other) :
    ((counted distinct (values first 0 shares)).map g).Perm
      ((counted distinct (values first 0 shares')).map g) := by
  -- The shares in the second order with their places in the first row, and then in both rows.
  obtain ⟨places, hplaces, hmap⟩ :=
    exists_perm_of_map_perm ((map_fst_located made 0 shares).symm ▸ hperm)
  let rows := located (fun place : Share × Nat => place.1.made) 0 places
  have hrows : rows.map (·.1) = places := map_fst_located _ 0 places
  have hsecond : values first 0 shares' =
      (rows.filter fun place => !place.1.1.operand.isUnresolved).map fun place =>
        placed first (place.1.1, place.2) := by
    rw [values, ← hmap, located_map, List.filter_map, List.map_map]
    rfl
  have hfirst : (values first 0 shares).Perm
      ((rows.filter fun place => !place.1.1.operand.isUnresolved).map fun place =>
        placed first place.1) := by
    refine ((hplaces.filter _).map _).trans (.of_eq ?_)
    rw [← hrows, List.filter_map, List.map_map]
    rfl
  have hmem : ∀ place ∈ rows, place.1.1.Within first := by
    intro place hplace
    have hplace : place.1 ∈ located made 0 shares :=
      hplaces.mem_iff.mpr (hrows ▸ List.mem_map_of_mem hplace)
    refine hwithin _ ?_
    rw [← map_fst_located made 0 shares]
    exact List.mem_map_of_mem hplace
  have hordered : rows.Pairwise fun a b => a.2 + a.1.1.made ≤ b.2 :=
    pairwise_located (fun place : Share × Nat => place.1.made) 0 places
  have hapart : rows.Pairwise fun a b =>
      a.1.2 + a.1.1.made ≤ b.1.2 ∨ b.1.2 + b.1.1.made ≤ a.1.2 := by
    have hplaces : places.Pairwise fun a b => a.2 + a.1.made ≤ b.2 ∨ b.2 + b.1.made ≤ a.2 :=
      (hplaces.pairwise_iff fun h => h.symm).mp
        ((pairwise_located made 0 shares).imp fun h => .inl h)
    rwa [← hrows, List.pairwise_map] at hplaces
  rw [hsecond, counted_placed_map (fun place hplace => hmem place (List.mem_of_mem_filter hplace))
    (hapart.filter _) (hordered.filter _) distinct hrename]
  exact counted_perm hfirst hcoherent hg

end Share

/-! ### Sums of integers -/

/-- A value is the sum of integers: a 64-bit integer if it fits and none of them is of unbounded
kind, and null if there are none. -/
inductive IsIntegerSum : List Value → Value → Prop where
  | null : IsIntegerSum [] .null
  | long {numbers : List Value} (n : Int64) (ne_nil : numbers ≠ [])
    (bounded : ∀ number ∈ numbers, isBigInteger number = false)
    (sum_eq : n.toInt = (numbers.map integerOf).sum) : IsIntegerSum numbers (.long n)
  | bigInteger {numbers : List Value} (ne_nil : numbers ≠ [])
    (unbounded : (∃ number ∈ numbers, isBigInteger number) ∨
      ¬ (-2 ^ 63 ≤ (numbers.map integerOf).sum ∧ (numbers.map integerOf).sum < 2 ^ 63)) :
    IsIntegerSum numbers (.bigInteger (numbers.map integerOf).sum)

theorem integerTotal_eq (numbers : List Value) :
    integerTotal numbers =
      if Value.fitsInt64 (numbers.map integerOf).sum && !numbers.any isBigInteger then
        .long (Int64.ofInt (numbers.map integerOf).sum)
      else .bigInteger (numbers.map integerOf).sum := by
  rw [integerTotal, List.sum_eq_foldl, List.foldl_map]

theorem fitsInt64_iff (n : ℤ) : Value.fitsInt64 n ↔ -2 ^ 63 ≤ n ∧ n < 2 ^ 63 := by
  have hmin : Int64.minValue.toInt = -2 ^ 63 := rfl
  have hmax : Int64.maxValue.toInt = 2 ^ 63 - 1 := rfl
  rw [Value.fitsInt64, Bool.and_eq_true, decide_eq_true_iff, decide_eq_true_iff, hmin, hmax]
  omega

theorem integerTotal_isIntegerSum {numbers : List Value} (hne : numbers ≠ []) :
    IsIntegerSum numbers (integerTotal numbers) := by
  rw [integerTotal_eq]
  split
  · rename_i h
    rw [Bool.and_eq_true, fitsInt64_iff, Bool.not_eq_true', List.any_eq_false] at h
    refine .long _ hne (by simpa using h.2) (Int64.toInt_ofInt_of_le h.1.1 h.1.2)
  · rename_i h
    rw [Bool.and_eq_true, fitsInt64_iff, not_and_or, Bool.not_eq_true', Bool.not_eq_false,
      List.any_eq_true] at h
    exact .bigInteger hne h.symm

theorem integerTotal_perm {numbers numbers' : List Value} (h : numbers.Perm numbers') :
    integerTotal numbers = integerTotal numbers' := by
  rw [integerTotal_eq, integerTotal_eq, (h.map integerOf).sum_eq, h.any_eq]

namespace AggregateKind

theorem count_compute (values : List Value) :
    count.compute values =
      .ok (.long (Int64.ofNat (values.countP fun value => !value.isNull))) := by
  rw [compute, List.countP_eq_length_filter]

/-- The integers among values that are integers or null. -/
def numbers (values : List Value) : List Value := values.filter fun value => !value.isNull

theorem total_of_isIntegral {values : List Value} (h : ∀ value ∈ values, value.isIntegral) :
    total values = integerTotal values := by
  have hkind : ∀ value : Value, value.isIntegral →
      isDecimal value = false ∧ value.binary?.isSome = false := by
    intro value hvalue
    cases value <;> first | exact ⟨rfl, rfl⟩ | cases hvalue
  have hdecimal : values.any isDecimal = false :=
    List.any_eq_false.mpr fun value hvalue => by simp [(hkind value (h value hvalue)).1]
  have hbinary : (values.any fun value => value.binary?.isSome) = false :=
    List.any_eq_false.mpr fun value hvalue => by simp [(hkind value (h value hvalue)).2]
  rw [total, hdecimal, hbinary]
  rfl

/-- The sum of values that are integers or null. -/
def integerSum (values : List Value) : Value :=
  if (numbers values).isEmpty then .null else integerTotal (numbers values)

theorem integerSum_isIntegerSum (values : List Value) :
    IsIntegerSum (numbers values) (integerSum values) := by
  rw [integerSum]
  split
  · rename_i h
    rw [List.isEmpty_iff.mp h]
    exact .null
  · rename_i h
    exact integerTotal_isIntegerSum fun hnil => h (List.isEmpty_iff.mpr hnil)

theorem integerSum_perm {values values' : List Value} (h : values.Perm values') :
    integerSum values = integerSum values' := by
  have hnumbers : (numbers values).Perm (numbers values') := h.filter _
  rw [integerSum, integerSum, integerTotal_perm hnumbers, hnumbers.isEmpty_eq]

theorem sum_compute_of_isIntegral {values : List Value}
    (h : ∀ value ∈ values, value.isNull ∨ value.isIntegral) :
    sum.compute values = .ok (integerSum values) := by
  have hintegral : ∀ value ∈ numbers values, value.isIntegral := by
    intro value hvalue
    obtain ⟨hvalue, hnull⟩ := List.mem_filter.mp hvalue
    exact (h value hvalue).resolve_left (by simpa using hnull)
  have hnumeric : ∀ value ∈ numbers values, value.isNumeric := by
    intro value hvalue
    have := hintegral value hvalue
    cases value <;> first | rfl | cases this
  rw [compute, integerSum]
  change (do
    if (numbers values).isEmpty then return .null
    sum.requireNumeric (numbers values)
    return total (numbers values) : Except EvalError Value) = _
  rw [requireNumeric_of_isNumeric sum hnumeric, total_of_isIntegral hintegral]
  split <;> rfl

end AggregateKind

/-! ### Collecting -/

theorem AggregateKind.evaluate_settles (kind : AggregateKind) {argument : AggregateArgument}
    {members values : List Value} {supply after : InstanceId} {trace : Trace} {value : Value}
    (hmembers : context.resultSet = some members)
    (hcollect : Settles (argument.collect members) context supply ⟨.ok values, last, trace, after⟩)
    (hlast : context.Rebound last) (hvalue : kind.compute (argument.select values) = .ok value) :
    ∃ trace after, Settles (kind.evaluate argument) context supply
      ⟨.ok (.value value), context, trace, after⟩ := by
  have hcompute : Settles (Eval.ofExcept (kind.compute (argument.select values))) context after
      ⟨.ok value, context, .empty, after⟩ := by
    rw [hvalue]
    exact .pure value
  have hrest : Settles (do
      let values ← Eval.restoring (argument.collect members)
      return Operand.value (← Eval.ofExcept (kind.compute (argument.select values))))
      context supply ⟨.ok (.value value), context, trace ++ (.empty ++ .empty), after⟩ :=
    (hcollect.restoring hlast).bind (hcompute.bind (.pure (Operand.value value)))
  refine ⟨trace ++ (.empty ++ .empty), after, .readContext ?_⟩
  rw [hmembers]
  exact hrest

namespace Expr

/-- The expression whose values an aggregate takes if it has this one for its argument. -/
def aggregatedPart : Expr → Expr
  | unary .distinct e => e
  | e => e

theorem result_aggregated (env : Environment) (e : Expr) :
    e.result env .aggregated = e.aggregatedPart.result env .operand := by
  cases e with
  | unary op operand => cases op <;> rfl
  | binary op left right => cases op <;> rfl
  | invoke receiver method args declared => cases receiver <;> rfl
  | path qualifier segments => cases qualifier <;> rfl
  | _ => rfl

/-- An aggregate of an expression, before it is told which. -/
def aggregated (env : Environment) (e : Expr) : AggregateArgument :=
  ⟨e.isDistinct, operandOf (e.result env .aggregated)⟩

/-- The values that an aggregate of the expression takes from members one after another. -/
def taken (env : Environment) (e : Expr) (context : Context) (members : List Value)
    (supply : InstanceId) : Except Halt (List Value) :=
  (outcomeOf ((e.aggregated env).collect members) context supply).result

/-- The share of a member: what the aggregated expression comes to with it as the candidate. -/
def ShareOf (env : Environment) (e : Expr) (context : Context) (first : InstanceId) (member : Value)
    (share : Share) : Prop :=
  e.aggregatedPart.Shares env (context.setCandidate member) first (.ok share.operand) share.made

theorem ShareOf.within {e : Expr} {member : Value} {share : Share}
    (h : e.ShareOf env context first member share) : share.Within first := by
  rw [Share.Within]
  cases hoperand : share.operand with
  | value value => exact Shares.within h value (congrArg Except.ok hoperand)
  | unresolved => exact .node trivial (by simp [Operand.valueOrNull, Value.children])

theorem within_of_forall₂ {e : Expr} {members : List Value} {shares : List Share}
    (h : List.Forall₂ (e.ShareOf env context first) members shares) :
    ∀ share ∈ shares, share.Within first := by
  induction h with
  | nil => simp
  | cons hshare _ ih => exact List.forall_mem_cons.mpr ⟨hshare.within, ih⟩

theorem collect_settles {e : Expr} {members : List Value} {shares : List Share}
    (h : List.Forall₂ (e.ShareOf env context first) members shares) {rebound : Context}
    (hrebound : context.Rebound rebound) (start : Nat) :
    ∃ trace last after, context.Rebound last ∧
      Settles ((e.aggregated env).collect members) rebound (first.advance start)
        ⟨.ok (Share.values first start shares), last, trace, after⟩ := by
  induction h generalizing rebound start with
  | nil => exact ⟨.empty, rebound, _, hrebound, .pure []⟩
  | @cons member share members shares hshare _ ih =>
    have hset : Settles (Eval.modifyContext (·.setCandidate member)) rebound
      (first.advance start) _ :=
      .mapContext (hrebound.setCandidate member)
    obtain ⟨trace, hoperand⟩ := hshare.settles start
    have hmember : context.Rebound (context.setCandidate member) := .inr ⟨member, rfl⟩
    obtain ⟨trace', last, after, hlast, hrest⟩ := ih hmember (start + share.made)
    rw [← result_aggregated, ← operandOf_eq (e.result env .aggregated)] at hoperand
    rw [AggregateArgument.collect, Share.values_cons]
    obtain ⟨operand, made⟩ := share
    cases operand with
    | value value =>
      exact ⟨_, last, after, hlast, hset.bind (hoperand.bind (hrest.bind (.pure _)))⟩
    | unresolved => exact ⟨_, last, after, hlast, hset.bind (hoperand.bind hrest)⟩

theorem taken_eq {e : Expr} {members : List Value} {shares : List Share}
    (h : List.Forall₂ (e.ShareOf env context first) members shares) :
    e.taken env context members first = .ok (Share.values first 0 shares) := by
  obtain ⟨trace, last, after, -, hsettles⟩ := collect_settles h (.inl rfl) 0
  exact congrArg Outcome.result hsettles.outcomeOf_eq

/-- An aggregate comes to what it makes of the values that count. -/
theorem aggregate_resolution {e : Expr} {members : List Value} {shares : List Share}
    (h : List.Forall₂ (e.ShareOf env context first) members shares)
    (hmembers : context.resultSet = some members) {kind : AggregateKind} {method : String}
    (hkind : AggregateKind.ofName? method = some kind) (declared : Option String) {value : Value}
    (hvalue : kind.compute (Share.counted e.isDistinct (Share.values first 0 shares)) = .ok value) :
    (invoke none method [e] declared).resolution env context first =
      .ok (.resolved (.value value)) := by
  obtain ⟨trace, last, after, hlast, hcollect⟩ := collect_settles h (.inl rfl) 0
  obtain ⟨trace, after, hevaluate⟩ := kind.evaluate_settles hmembers hcollect hlast hvalue
  have hrun : (invoke none method [e] declared).result env .operand =
      kind.evaluate (e.aggregated env) := by
    rw [result, hkind]
    rfl
  rw [← hrun] at hevaluate
  exact resolution_of_result hevaluate

/-- The value that the aggregated expression has for a member, if it has one. -/
def valueFor? (env : Environment) (e : Expr) (context : Context) (supply : InstanceId)
    (member : Value) : Option Value :=
  match e.aggregatedPart.resolution env (context.setCandidate member) supply with
  | .ok (.resolved (.value value)) => some value
  | _ => none

theorem ShareOf.valueFor?_eq {e : Expr} {member : Value} {share : Share}
    (h : e.ShareOf env context first member share) :
    e.valueFor? env context first member =
      if share.operand.isUnresolved then none else some share.operand.valueOrNull := by
  rw [valueFor?, Shares.resolution_eq h, Resolution.ofResult]
  cases share.operand <;> rfl

theorem valuesFor_forall₂ {e : Expr} {members : List Value} {shares : List Share}
    (h : List.Forall₂ (e.ShareOf env context first) members shares) (start : Nat) :
    List.Forall₂ (fun own value => ∃ before, value = own.rename (first.delay before))
      (members.filterMap (e.valueFor? env context first)) (Share.values first start shares) := by
  induction h generalizing start with
  | nil => exact .nil
  | @cons member share members shares hshare _ ih =>
    rw [List.filterMap_cons, hshare.valueFor?_eq, Share.values_cons]
    cases share.operand with
    | value value => exact .cons ⟨start, rfl⟩ (ih _)
    | unresolved => exact ih _

theorem countP_eq_countP_valueFor? {e : Expr} {members values : List Value}
    (h : List.Forall₂ (fun own value => ∃ before, value = own.rename (first.delay before))
      (members.filterMap (e.valueFor? env context first)) values) :
    values.countP (fun value => !value.isNull) =
      members.countP fun member =>
        (e.valueFor? env context first member).any fun value => !value.isNull := by
  have hnulls : (members.filterMap (e.valueFor? env context first)).map Value.isNull =
      values.map Value.isNull := by
    rw [← List.forall₂_eq_eq_eq, List.forall₂_map_left_iff, List.forall₂_map_right_iff]
    refine h.imp ?_
    rintro own _ ⟨before, rfl⟩
    exact (own.isNull_rename _).symm
  have hcount := congrArg (List.countP not) hnulls
  rw [List.countP_map, List.countP_map, List.countP_filterMap] at hcount
  refine hcount.symm.trans (List.countP_congr fun member _ => ?_)
  cases e.valueFor? env context first member <;> rfl

theorem aggregatedPart_madeBefore {e : Expr} (h : e.MadeBefore first) :
    e.aggregatedPart.MadeBefore first := by
  cases e with
  | unary op operand =>
    cases op <;> first | exact h | exact h.child operand (by simp [children])
  | _ => exact h

theorem exists_shareOf (henv : env.AlwaysMadeBefore first) {e : Expr} (he : e.MadeBefore first)
    (hcontext : context.MadeBefore first) {members : List Value}
    (hmembers : ∀ member ∈ members, member.MadeBefore first)
    (hends : ∀ member ∈ members, ∃ operand, e.aggregatedPart.resolution env
      (context.setCandidate member) first = .ok (.resolved operand)) :
    ∃ shares, List.Forall₂ (e.ShareOf env context first) members shares := by
  induction members with
  | nil => exact ⟨[], .nil⟩
  | cons member rest ih =>
    rw [List.forall_mem_cons] at hmembers hends
    obtain ⟨shares, hshares⟩ := ih hmembers.2 hends.2
    obtain ⟨result, made, hshare⟩ := exists_shares henv (aggregatedPart_madeBefore he)
      (hcontext.setCandidate hmembers.1)
    obtain ⟨operand, hoperand⟩ := hends.1
    rw [hshare.resolution_eq] at hoperand
    have hresult : result = .ok operand := by
      cases result with
      | ok other => simpa [Resolution.ofResult] using hoperand
      | error halt => cases halt <;> simp [Resolution.ofResult] at hoperand
    rw [hresult] at hshare
    exact ⟨⟨operand, made⟩ :: shares, .cons hshare hshares⟩

theorem containsAggregate_aggregatedPart {e : Expr} (h : e.containsAggregate = false) :
    e.aggregatedPart.containsAggregate = false := by
  cases e with
  | unary op operand => cases op <;> exact h
  | _ => exact h

theorem ShareOf.withResultSet [env.registry.EvaluatesArguments] {e : Expr}
    (he : e.containsAggregate = false) {member : Value} {share : Share}
    (h : e.ShareOf env context first member share) (members : Option (List Value)) :
    e.ShareOf env (context.withResultSet members) first member share := by
  refine ⟨fun before => ?_, Shares.within h⟩
  obtain ⟨trace, hsettles⟩ := Shares.settles h before
  have hadmits : e.aggregatedPart.All Agreement.apartFromResultSet.Admits :=
    ((containsAggregate_eq_false_iff _).mp (containsAggregate_aggregatedPart he)).imp
      fun _ => Agreement.admits_apartFromResultSet
  obtain ⟨result, trace', made, hfirst, hsecond, -⟩ :=
    (result_agrees (Environment.Respects.refl env) hadmits .operand _ _
      (Agreement.contexts_withResultSet (context.setCandidate member) members)).settles
        (Agreement.supplies_apartFromResultSet (first.advance before))
  have hsame := hfirst.outcomeOf_eq.symm.trans hsettles.outcomeOf_eq
  injection hsame with hresult _ _ hsupply
  rw [hresult, hsupply] at hsecond
  have hcontext : (context.withResultSet members).setCandidate member =
      (context.setCandidate member).withResultSet members := rfl
  rw [hcontext]
  refine ⟨trace', ?_⟩
  simpa [Agreement.image, Agreement.apartFromResultSet, Agreement.delaying] using hsecond

theorem Context.MadeBefore.mem {members : List Value} {context : Context}
    (h : (context.withResultSet (some members)).MadeBefore first) :
    ∀ member ∈ members, member.MadeBefore first := h.resultSet members rfl

/-- The values that count among the values taken, of distinct ones the first of each class. -/
def representatives (e : Expr) (values : List Value) : List Value :=
  if e.isDistinct then firstValues values else values

theorem counted_eq_representatives {e : Expr} {values : List Value}
    (hcoherent : e.isDistinct → Value.Coherent values) :
    Share.counted e.isDistinct values = e.representatives values := by
  rw [Share.counted, representatives]
  split
  · rename_i h
    exact distinctValues_eq_firstValues (hcoherent h)
  · rfl

end Expr

/-- What counts for sums of integers: the integers themselves. -/
def Value.integralOrNull (value : Value) : Value := if value.isIntegral then value else .null

theorem Value.integralOrNull_rename (ρ : InstanceId → InstanceId) (value : Value) :
    (value.rename ρ).integralOrNull = value.integralOrNull := by
  cases value <;> rfl

theorem Value.isNull_eq_of_strictEq {value other : Value} (h : value.strictEq other) :
    value.isNull = other.isNull := by
  cases value <;> cases other <;> first | rfl | cases h

theorem Value.isIntegral_eq_of_strictEq {value other : Value} (h : value.strictEq other) :
    value.isIntegral = other.isIntegral := by
  cases value <;> cases other <;> first | rfl | cases h

theorem Value.integralOrNull_eq_of_strictEq {value other : Value} (h : value.strictEq other) :
    value.integralOrNull = other.integralOrNull := by
  cases value <;> cases other <;> first
    | rfl
    | cases h
    | exact congrArg Value.integralOrNull (congrArg _ (beq_iff_eq.mp h))

theorem Value.map_integralOrNull {values : List Value}
    (h : ∀ value ∈ values, value.isNull ∨ value.isIntegral) :
    values.map Value.integralOrNull = values := by
  refine (List.map_congr_left fun value hvalue => ?_).trans (List.map_id values)
  have := h value hvalue
  cases value <;> first | rfl | simp [isNull, isIntegral] at this

namespace AggregateKind

variable {distinct : Bool} {shares shares' : List Share}

theorem counted_subset (distinct : Bool) (values : List Value) :
    Share.counted distinct values ⊆ values := by
  cases distinct with
  | false => exact List.Subset.refl _
  | true => exact firstsBy_subset _ _

theorem count_compute_perm (hperm : shares.Perm shares')
    (hwithin : ∀ share ∈ shares, share.Within first)
    (hcoherent : distinct → Value.Coherent (Share.values first 0 shares)) :
    count.compute (Share.counted distinct (Share.values first 0 shares')) =
      count.compute (Share.counted distinct (Share.values first 0 shares)) := by
  have hcount := (Share.counted_values_perm hperm hwithin hcoherent
    (g := Value.isNull) Value.isNull_rename fun _ _ => Value.isNull_eq_of_strictEq).countP_eq not
  rw [List.countP_map, List.countP_map] at hcount
  rw [count_compute, count_compute]
  exact congrArg (fun n => Except.ok (Value.long (Int64.ofNat n))) hcount.symm

theorem integral_of_perm (hperm : shares.Perm shares')
    (hwithin : ∀ share ∈ shares, share.Within first)
    (hintegral : ∀ value ∈ Share.values first 0 shares, value.isNull ∨ value.isIntegral) :
    ∀ value ∈ Share.values first 0 shares', value.isNull ∨ value.isIntegral := by
  let fits (value : Value) := value.isNull || value.isIntegral
  have hfits : ((Share.values first 0 shares).map fits).Perm
      ((Share.values first 0 shares').map fits) :=
    Share.counted_values_perm hperm hwithin (fun h : false = true => nomatch h)
      (fun ρ value => by simp [fits]) fun value other h => by
        simp only [fits, Value.isNull_eq_of_strictEq h, Value.isIntegral_eq_of_strictEq h]
  intro value hvalue
  obtain ⟨other, hother, heq⟩ :=
    List.mem_map.mp (hfits.mem_iff.mpr (List.mem_map_of_mem hvalue))
  have htrue : fits other = true := Bool.or_eq_true_iff.mpr (hintegral other hother)
  exact Bool.or_eq_true_iff.mp (heq.symm.trans htrue)

theorem sum_compute_perm (hperm : shares.Perm shares')
    (hwithin : ∀ share ∈ shares, share.Within first)
    (hcoherent : distinct → Value.Coherent (Share.values first 0 shares))
    (hintegral : ∀ value ∈ Share.values first 0 shares, value.isNull ∨ value.isIntegral) :
    sum.compute (Share.counted distinct (Share.values first 0 shares')) =
      sum.compute (Share.counted distinct (Share.values first 0 shares)) := by
  have hintegral' := integral_of_perm hperm hwithin hintegral
  have hsum := Share.counted_values_perm hperm hwithin hcoherent (g := Value.integralOrNull)
    Value.integralOrNull_rename fun _ _ => Value.integralOrNull_eq_of_strictEq
  have hcounted := fun value hvalue => hintegral value (counted_subset distinct _ hvalue)
  have hcounted' := fun value hvalue => hintegral' value (counted_subset distinct _ hvalue)
  rw [Value.map_integralOrNull hcounted, Value.map_integralOrNull hcounted'] at hsum
  rw [sum_compute_of_isIntegral hcounted, sum_compute_of_isIntegral hcounted',
    integerSum_perm hsum]

end AggregateKind

namespace Expr

/-- If what an aggregate reads agrees on the objects of names, so do the values that it takes. -/
theorem coherent_taken {kinds : Kinds} (henv : env.Described kinds) {e : Expr}
    (he : e.Described kinds) (hcontext : context.Described kinds)
    (hsupply : ∀ made, kinds (first.advance made) = none) {members values : List Value}
    (hmembers : ∀ member ∈ members, member.Described kinds)
    (h : e.taken env context members first = .ok values) : Value.Coherent values := by
  have hcollect : Eval.Preserves kinds ((e.aggregated env).collect members) _ :=
    AggregateKind.collect_preserves ((result_preserves henv he).operandOf .aggregated) hmembers
  obtain ⟨latest, -, hrun⟩ := hcollect kinds (.refl kinds) (Machine.start context .empty first)
    ⟨hcontext, by simp [Machine.start], hsupply⟩
  rw [taken, outcomeOf] at h
  split at hrun
  · rename_i hcollect
    rw [hcollect] at h
    obtain rfl := Except.ok.inj h
    exact ⟨latest, hrun.2⟩
  · rename_i hcollect
    rw [hcollect] at h
    cases h

/-- An aggregate of the expression over a result set. -/
def aggregateOver (env : Environment) (context : Context) (supply : InstanceId) (method : String)
    (declared : Option String) (e : Expr) (members : List Value) : Except EvalError Resolution :=
  (invoke none method [e] declared).resolution env (context.withResultSet (some members)) supply

/-- Over a result set on whose members the argument does not stop a count is the number of values
other than null, and a sum of integers is exact; of distinct values the first of each class counts,
where what is read agrees on the object of each name. Both are the same for every order of the
result set if the argument takes no aggregate itself. -/
theorem count_and_sum_exact [env.registry.EvaluatesArguments] {e : Expr} {members : List Value}
    (henv : env.AlwaysMadeBefore first) (he : e.MadeBefore first)
    (hcontext : (context.withResultSet (some members)).MadeBefore first)
    (hends : ∀ member ∈ members, ∃ operand, e.aggregatedPart.resolution env
      ((context.withResultSet (some members)).setCandidate member) first =
        .ok (.resolved operand))
    (hkinds : e.isDistinct → ∃ kinds : Kinds, env.Described kinds ∧ e.Described kinds ∧
      (context.withResultSet (some members)).Described kinds ∧
        ∀ made, kinds (first.advance made) = none) :
    let valueFor? := e.valueFor? env (context.withResultSet (some members)) first
    ∃ values,
      e.taken env (context.withResultSet (some members)) members first = .ok values ∧
      List.Forall₂ (fun own value => ∃ before, value = own.rename (first.delay before))
        (members.filterMap valueFor?) values ∧
      values.countP (fun value => !value.isNull) =
        members.countP (fun member => (valueFor? member).any fun value => !value.isNull) ∧
      (∀ method declared, AggregateKind.ofName? method = some .count →
        e.aggregateOver env context first method declared members =
          .ok (.resolved (.value (.long (Int64.ofNat
            ((e.representatives values).countP fun value => !value.isNull)))))) ∧
      ((∀ value ∈ values, value.isNull ∨ value.isIntegral) →
        ∀ method declared, AggregateKind.ofName? method = some .sum →
          ∃ sum, IsIntegerSum (AggregateKind.numbers (e.representatives values)) sum ∧
            e.aggregateOver env context first method declared members =
              .ok (.resolved (.value sum))) ∧
      (e.containsAggregate = false → ∀ members', members.Perm members' →
        ∀ kind method declared, AggregateKind.ofName? method = some kind →
          kind = .count ∨ kind = .sum ∧ (∀ value ∈ values, value.isNull ∨ value.isIntegral) →
            e.aggregateOver env context first method declared members' =
              e.aggregateOver env context first method declared members) := by
  intro valueFor?
  obtain ⟨shares, hshares⟩ := exists_shareOf henv he hcontext
    (Context.MadeBefore.mem hcontext) hends
  have htaken := taken_eq hshares
  have hcoherent : e.isDistinct → Value.Coherent (Share.values first 0 shares) := by
    intro hdistinct
    obtain ⟨kinds, henv, he, hcontext, hsupply⟩ := hkinds hdistinct
    exact coherent_taken henv he hcontext hsupply (hcontext.resultSet members rfl) htaken
  have hcounted := counted_eq_representatives hcoherent
  have hvalues := valuesFor_forall₂ hshares 0
  refine ⟨Share.values first 0 shares, htaken, hvalues, countP_eq_countP_valueFor? hvalues, ?_, ?_,
    ?_⟩
  · intro method declared hmethod
    rw [← hcounted]
    exact aggregate_resolution hshares rfl hmethod declared (AggregateKind.count_compute _)
  · intro hintegral method declared hmethod
    rw [← hcounted]
    refine ⟨_, AggregateKind.integerSum_isIntegerSum _,
      aggregate_resolution hshares rfl hmethod declared
        (AggregateKind.sum_compute_of_isIntegral fun value hvalue => ?_)⟩
    exact hintegral value (AggregateKind.counted_subset _ _ hvalue)
  · intro haggregate members' hperm kind method declared hmethod hkind
    obtain ⟨shares', hshares', hperm'⟩ := List.perm_comp_forall₂ hperm.symm hshares
    have hshares' := hshares'.imp fun _ _ h => h.withResultSet haggregate (some members')
    have hwithin := within_of_forall₂ hshares
    rw [aggregateOver, aggregateOver]
    rcases hkind with rfl | ⟨rfl, hintegral⟩
    · have hcount := AggregateKind.count_compute_perm hperm'.symm hwithin hcoherent
      rw [aggregate_resolution hshares rfl hmethod declared (AggregateKind.count_compute _)]
      exact aggregate_resolution hshares' rfl hmethod declared
        (hcount.trans (AggregateKind.count_compute _))
    · have hsum := AggregateKind.sum_compute_perm hperm'.symm hwithin hcoherent hintegral
      have hcompute := AggregateKind.sum_compute_of_isIntegral fun value hvalue =>
        hintegral value (AggregateKind.counted_subset e.isDistinct _ hvalue)
      rw [aggregate_resolution hshares rfl hmethod declared hcompute]
      exact aggregate_resolution hshares' rfl hmethod declared (hsum.trans hcompute)

/-- The candidate itself, of equal ones the first. -/
def distinctCandidates : Expr := unary .distinct (path none ["this"])

/-- A null and three numbers, two of which are equal. -/
def numbersAndNull : List Value := [.int 1, .null, .int 1, .int 2]

theorem count_and_sum_exact_numbersAndNull :
    let context : Context := ⟨"this", [], [], [], none⟩
    let among (members : List Value) : Context := context.withResultSet (some members)
    distinctCandidates.taken points (among numbersAndNull) numbersAndNull ⟨1, 0, 0⟩ =
        .ok numbersAndNull ∧
    distinctCandidates.aggregateOver points context ⟨1, 0, 0⟩ "count" none numbersAndNull =
      .ok (.resolved (.value (.long 2))) ∧
    distinctCandidates.aggregateOver points context ⟨1, 0, 0⟩ "sum" none numbersAndNull.reverse =
      distinctCandidates.aggregateOver points context ⟨1, 0, 0⟩ "sum" none numbersAndNull := by
  intro context among
  have htaken : distinctCandidates.taken points (among numbersAndNull) numbersAndNull ⟨1, 0, 0⟩ =
      .ok numbersAndNull := rfl
  have hflat : ∀ value ∈ numbersAndNull, value.isFlat := by decide
  have hcontext : (among numbersAndNull).MadeBefore ⟨1, 0, 0⟩ := by
    refine ⟨fun _ => Value.madeBefore_of_isFlat rfl, ?_, ?_, ?_⟩
    · rintro name value ⟨⟩
    · rintro name value ⟨⟩
    · rintro members ⟨⟩ member hmember
      exact Value.madeBefore_of_isFlat (hflat member hmember)
  have hliterals : distinctCandidates.All fun node => ∀ value, node ≠ literal value := by
    refine .node (by simp [distinctCandidates]) ?_
    simp only [distinctCandidates, children, List.forall_mem_cons]
    exact ⟨.node (by simp) (by simp [children]), by simp⟩
  have hargument : distinctCandidates.MadeBefore ⟨1, 0, 0⟩ :=
    hliterals.imp fun _ hnode value h => absurd h (hnode value)
  have hends : ∀ member ∈ numbersAndNull, ∃ operand,
      distinctCandidates.aggregatedPart.resolution points
        ((among numbersAndNull).setCandidate member)
        ⟨1, 0, 0⟩ = .ok (.resolved operand) := by
    intro member _
    exact ⟨.value member, rfl⟩
  have hdescribed : (among numbersAndNull).Described fun _ => none := by
    refine ⟨fun _ => Value.described_of_isFlat _ rfl, ?_, ?_, ?_⟩
    · rintro name value ⟨⟩
    · rintro name value ⟨⟩
    · rintro members ⟨⟩ member hmember
      exact Value.described_of_isFlat _ (hflat member hmember)
  have hargument' : distinctCandidates.Described fun _ => none :=
    hliterals.imp fun _ hnode value h => absurd h (hnode value)
  have hpoints : points.Described fun _ => none := by
    refine ⟨?_, Registry.every_empty⟩
    rintro object index value ⟨⟩
  obtain ⟨values, hvalues, -, -, hcount, -, hperm⟩ := count_and_sum_exact
    (fun _ => points_madeBefore _) hargument hcontext hends
      fun _ => ⟨fun _ => none, hpoints, hargument', hdescribed, fun _ => rfl⟩
  obtain rfl := Except.ok.inj (htaken.symm.trans hvalues)
  refine ⟨htaken, ?_, ?_⟩
  · exact hcount "count" none (by decide +kernel)
  · exact hperm rfl _ (List.reverse_perm _).symm .sum "sum" none (by decide +kernel)
      (.inr ⟨rfl, by decide⟩)

/-- An aggregate in the argument ranges over the result set as well, and which of two equal values
it takes is a matter of their order. -/
theorem sum_of_greatest_by_order :
    let greatest : Expr := invoke none "max" [path none ["this"]] none
    let context : Context := ⟨"this", [], [], [], none⟩
    greatest.aggregateOver points context ⟨1, 0, 0⟩ "sum" none [.int 1, .bigInteger 1] =
        .ok (.resolved (.value (.long 2))) ∧
      greatest.aggregateOver points context ⟨1, 0, 0⟩ "sum" none [.bigInteger 1, .int 1] =
        .ok (.resolved (.value (.bigInteger 2))) := by
  constructor <;> cbv

end Expr

end ObjectQuery
