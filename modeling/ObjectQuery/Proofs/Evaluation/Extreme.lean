import ObjectQuery.Evaluation.Aggregate
import ObjectQuery.Proofs.Evaluation.Outcome
import ObjectQuery.Proofs.Value.Comparability

/-!
The least and the greatest of the values that an aggregate collects. Main statement: what is found,
and whether anything is, depends on the values alone and not on their order exactly if being
comparable and coming first are transitive among them.
-/

namespace ObjectQuery

namespace Value

variable {a b c : Value} {sense : Ordering}

/-- Values among which both being comparable and coming before one another are transitive. -/
structure Orderly (values : List Value) : Prop where
  comparable : ∀ a ∈ values, ∀ b ∈ values, ∀ c ∈ values,
    a.Comparable b → b.Comparable c → a.Comparable c
  below : ∀ a ∈ values, ∀ b ∈ values, ∀ c ∈ values,
    a.Precedes .lt b → b.Precedes .lt c → a.Precedes .lt c

theorem Orderly.precedes {values : List Value} (h : Orderly values) (hsense : sense ≠ .eq)
    (ha : a ∈ values) (hb : b ∈ values) (hc : c ∈ values) (hab : a.Precedes sense b)
    (hbc : b.Precedes sense c) : a.Precedes sense c := by
  cases sense with
  | eq => exact absurd rfl hsense
  | lt => exact h.below a ha b hb c hc hab hbc
  | gt =>
    have hba : b.Precedes .lt a := precedes_swap.mpr hab
    have hcb : c.Precedes .lt b := precedes_swap.mpr hbc
    exact precedes_swap.mpr (h.below c hc b hb a ha hcb hba)

end Value

namespace AggregateKind

variable {kind : AggregateKind} {wanted : Ordering} {values chosen rest : List Value}
  {best value result : Value}

open Value

/-! ### One step -/

theorem better_of_precedes (h : value.Precedes wanted best) :
    kind.better wanted best value = .ok value := by
  rw [better, h]
  simp

theorem better_of_not_precedes (hcomparable : value.Comparable best)
    (h : ¬ value.Precedes wanted best) : kind.better wanted best value = .ok best := by
  obtain ⟨order, horder⟩ := Option.isSome_iff_exists.mp hcomparable
  rw [Precedes, horder, Option.some_inj] at h
  rw [better, horder]
  simp [h]

theorem comparable_of_better (h : kind.better wanted best value = .ok result) :
    value.Comparable best := by
  rw [better] at h
  cases hcompare : value.compare? best with
  | none =>
    rw [hcompare] at h
    cases h
  | some order =>
    rw [Comparable, hcompare]
    rfl

theorem better_spec (h : kind.better wanted best value = .ok result) :
    (result = value ∧ value.Precedes wanted best) ∨
      (result = best ∧ ¬ value.Precedes wanted best) := by
  by_cases hprecedes : value.Precedes wanted best
  · rw [better_of_precedes hprecedes] at h
    exact .inl ⟨(Except.ok.inj h).symm, hprecedes⟩
  · rw [better_of_not_precedes (comparable_of_better h) hprecedes] at h
    exact .inr ⟨(Except.ok.inj h).symm, hprecedes⟩

/-! ### The whole list -/

/-- One of the values, which no value precedes. -/
def IsExtreme (wanted : Ordering) (values : List Value) (best : Value) : Prop :=
  best ∈ values ∧ ∀ value ∈ values, ¬ value.Precedes wanted best

theorem foldlM_better_cons :
    (value :: rest).foldlM (kind.better wanted) best =
      (kind.better wanted best value).bind (rest.foldlM (kind.better wanted)) := rfl

/-- The best values follow on one another in the wanted sense, so what one of them was compared with
does not precede the last one. -/
theorem foldlM_better_spec (hwanted : wanted ≠ .eq) (h : Orderly values)
    (hsubset : best :: rest ⊆ values) (hfold : rest.foldlM (kind.better wanted) best = .ok result) :
    result ∈ best :: rest ∧ (result = best ∨ result.Precedes wanted best) ∧
      (∀ value ∈ rest, ¬ value.Precedes wanted result) ∧ ∀ value ∈ rest, best.Comparable value := by
  induction rest generalizing best with
  | nil =>
    obtain rfl := Except.ok.inj hfold
    simp
  | cons value rest ih =>
    rw [foldlM_better_cons, Except.bind_eq_ok] at hfold
    obtain ⟨next, hnext, hfold⟩ := hfold
    have hbest : best ∈ values := hsubset List.mem_cons_self
    have hvalue : value ∈ values := hsubset (List.mem_cons_of_mem best List.mem_cons_self)
    have hrest : rest ⊆ values := fun other hother =>
      hsubset (List.mem_cons_of_mem best (List.mem_cons_of_mem value hother))
    have hcomparable := (comparable_of_better hnext).symm
    rcases better_spec hnext with ⟨rfl, hprecedes⟩ | ⟨rfl, hprecedes⟩
    · obtain ⟨hmem, hresult, hbound, hall⟩ := ih (List.cons_subset.mpr ⟨hvalue, hrest⟩) hfold
      have hresultMem : result ∈ values := List.cons_subset.mpr ⟨hvalue, hrest⟩ hmem
      refine ⟨List.mem_cons_of_mem best hmem, .inr ?_, ?_, ?_⟩
      · rcases hresult with rfl | hresult
        · exact hprecedes
        · exact h.precedes hwanted hresultMem hvalue hbest hresult hprecedes
      · intro other hother
        rcases List.mem_cons.mp hother with rfl | hother
        · rcases hresult with rfl | hresult
          · exact not_precedes_self hwanted
          · exact hresult.asymm hwanted
        · exact hbound other hother
      · intro other hother
        rcases List.mem_cons.mp hother with rfl | hother
        · exact hcomparable
        · exact h.comparable best hbest next hvalue other (hrest hother) hcomparable
            (hall other hother)
    · obtain ⟨hmem, hresult, hbound, hall⟩ := ih (List.cons_subset.mpr ⟨hbest, hrest⟩) hfold
      have hresultMem : result ∈ values := List.cons_subset.mpr ⟨hbest, hrest⟩ hmem
      refine ⟨?_, hresult, ?_, ?_⟩
      · rcases List.mem_cons.mp hmem with rfl | hmem
        · exact List.mem_cons_self
        · exact List.mem_cons_of_mem _ (List.mem_cons_of_mem _ hmem)
      · intro other hother
        rcases List.mem_cons.mp hother with rfl | hother
        · rcases hresult with rfl | hresult
          · exact hprecedes
          · exact fun hother => hprecedes
              (h.precedes hwanted hvalue hresultMem hbest hother hresult)
        · exact hbound other hother
      · intro other hother
        rcases List.mem_cons.mp hother with rfl | hother
        · exact hcomparable
        · exact hall other hother

theorem exists_foldlM_better (h : Orderly values) (hsubset : best :: rest ⊆ values)
    (hcomparable : ∀ value ∈ rest, best.Comparable value) :
    ∃ result, rest.foldlM (kind.better wanted) best = .ok result := by
  induction rest generalizing best with
  | nil => exact ⟨best, rfl⟩
  | cons value rest ih =>
    obtain ⟨hbest, hvalue, hrest⟩ : best ∈ values ∧ value ∈ values ∧ rest ⊆ values := by
      simpa [List.cons_subset] using hsubset
    have hfirst : best.Comparable value := hcomparable value List.mem_cons_self
    have hothers : ∀ other ∈ rest, best.Comparable other := fun other hother =>
      hcomparable other (List.mem_cons_of_mem value hother)
    rw [foldlM_better_cons]
    by_cases hprecedes : value.Precedes wanted best
    · rw [better_of_precedes hprecedes]
      exact ih (List.cons_subset.mpr ⟨hvalue, hrest⟩) fun other hother =>
        h.comparable value hvalue best hbest other (hrest hother) hfirst.symm (hothers other hother)
    · rw [better_of_not_precedes hfirst.symm hprecedes]
      exact ih (List.cons_subset.mpr ⟨hbest, hrest⟩) hothers

theorem exists_extreme_iff (kind : AggregateKind) (hwanted : wanted ≠ .eq) (h : Orderly values)
    (hsubset : chosen ⊆ values) (hlength : 2 ≤ chosen.length) :
    (∃ best, kind.extreme wanted chosen = .ok best) ↔
      ∀ a ∈ chosen, ∀ b ∈ chosen, a.Comparable b := by
  obtain _ | ⟨first, _ | ⟨second, rest⟩⟩ := chosen
  · simp at hlength
  · simp at hlength
  rw [extreme]
  constructor
  · rintro ⟨best, hbest⟩
    obtain ⟨-, -, -, hall⟩ := foldlM_better_spec hwanted h hsubset hbest
    have hfirst : first ∈ values := hsubset List.mem_cons_self
    have hsecond : second ∈ values := hsubset (List.mem_cons_of_mem first List.mem_cons_self)
    have hself : first.Comparable first := by
      have hcomparable := hall second List.mem_cons_self
      exact h.comparable first hfirst second hsecond first hfirst hcomparable hcomparable.symm
    have hchosen : ∀ a ∈ first :: second :: rest, first.Comparable a := by
      intro a ha
      rcases List.mem_cons.mp ha with rfl | ha
      · exact hself
      · exact hall a ha
    intro a ha b hb
    exact h.comparable a (hsubset ha) first hfirst b (hsubset hb) (hchosen a ha).symm (hchosen b hb)
  · intro hcomparable
    exact exists_foldlM_better h hsubset fun value hvalue =>
      hcomparable first List.mem_cons_self value (List.mem_cons_of_mem first hvalue)

theorem isExtreme_of_extreme (hwanted : wanted ≠ .eq) (h : Orderly values)
    (hsubset : chosen ⊆ values) (hchosen : chosen ≠ [])
    (hbest : kind.extreme wanted chosen = .ok best) :
    IsExtreme wanted chosen best := by
  obtain _ | ⟨first, rest⟩ := chosen
  · exact absurd rfl hchosen
  obtain ⟨hmem, hfirst, hbound, -⟩ := foldlM_better_spec hwanted h hsubset hbest
  refine ⟨hmem, fun value hvalue => ?_⟩
  rcases List.mem_cons.mp hvalue with rfl | hvalue
  · rcases hfirst with rfl | hfirst
    · exact not_precedes_self hwanted
    · exact hfirst.asymm hwanted
  · exact hbound value hvalue

/-! ### Whatever the order of the values -/

/-- In any order of the values there is no result, or there are results that are loosely equal and
that no value precedes. -/
def Determined (kind : AggregateKind) (wanted : Ordering) (values : List Value) : Prop :=
  ∀ other : List Value, other.Perm values →
    (∃ error error', kind.extreme wanted values = .error error ∧
      kind.extreme wanted other = .error error') ∨
    ∃ best best', kind.extreme wanted values = .ok best ∧ kind.extreme wanted other = .ok best' ∧
      best.looseEq best' ∧ IsExtreme wanted values best ∧ IsExtreme wanted values best'

theorem determined_of_orderly (hwanted : wanted ≠ .eq) (h : Orderly values)
    (hsubset : chosen ⊆ values)
    (hlength : 2 ≤ chosen.length) : kind.Determined wanted chosen := by
  intro other hperm
  have hother : other ⊆ values := fun value hvalue => hsubset (hperm.subset hvalue)
  have hotherLength : 2 ≤ other.length := hperm.length_eq ▸ hlength
  have hiff := exists_extreme_iff kind hwanted h hsubset hlength
  have hotherIff := exists_extreme_iff kind hwanted h hother hotherLength
  have hsame : (∀ a ∈ other, ∀ b ∈ other, a.Comparable b) ↔
      ∀ a ∈ chosen, ∀ b ∈ chosen, a.Comparable b := by
    simp only [hperm.mem_iff]
  cases hchosen : kind.extreme wanted chosen with
  | error error =>
    cases hresult : kind.extreme wanted other with
    | error error' => exact .inl ⟨error, error', rfl, rfl⟩
    | ok best' =>
      obtain ⟨best, hbest⟩ := hiff.mpr (hsame.mp (hotherIff.mp ⟨best', hresult⟩))
      rw [hchosen] at hbest
      cases hbest
  | ok best =>
    have hcomparable := hiff.mp ⟨best, hchosen⟩
    obtain ⟨best', hbest'⟩ := hotherIff.mpr (hsame.mpr hcomparable)
    have hextreme : IsExtreme wanted chosen best :=
      isExtreme_of_extreme hwanted h hsubset (List.ne_nil_of_length_pos (by omega)) hchosen
    have hextreme' : IsExtreme wanted chosen best' := by
      obtain ⟨hmem, hbound⟩ :=
        isExtreme_of_extreme hwanted h hother (List.ne_nil_of_length_pos (by omega)) hbest'
      exact ⟨hperm.mem_iff.mp hmem, fun value hvalue => hbound value (hperm.mem_iff.mpr hvalue)⟩
    have hequal : best.looseEq best' :=
      looseEq_of_not_precedes hwanted (hcomparable best hextreme.1 best' hextreme'.1)
        (hextreme'.2 best hextreme.1) (hextreme.2 best' hextreme'.1)
    exact .inr ⟨best, best', rfl, hbest', hequal, hextreme, hextreme'⟩

/-! ### What a result that does not depend on the order of the values needs -/

theorem Determined.extreme (h : kind.Determined wanted values) {other : List Value}
    (hperm : other.Perm values) (hbest : kind.extreme wanted values = .ok best) :
    ∃ best', kind.extreme wanted other = .ok best' ∧ IsExtreme wanted values best' := by
  rcases h other hperm with ⟨error, _, herror, -⟩ | ⟨_, best', -, hbest', -, -, hextreme⟩
  · rw [hbest] at herror
    cases herror
  · exact ⟨best', hbest', hextreme⟩

variable {a b c : Value}

theorem extreme_triple :
    kind.extreme wanted [a, b, c] =
      (kind.better wanted a b).bind fun best => kind.better wanted best c := by
  rw [extreme, foldlM_better_cons]
  refine congrArg _ (funext fun best => ?_)
  rw [foldlM_better_cons]
  cases kind.better wanted best c <;> rfl

theorem extreme_triple_of_precedes (hba : b.Precedes wanted a) (hcb : c.Precedes wanted b) :
    kind.extreme wanted [a, b, c] = .ok c := by
  rw [extreme_triple, better_of_precedes hba]
  exact better_of_precedes hcb

theorem comparable_of_determined (h : kind.Determined wanted [b, a, c]) (hab : a.Comparable b)
    (hbc : b.Comparable c) (hprecedes : ¬ a.Precedes wanted b) : a.Comparable c := by
  have hfound : ∃ best, kind.extreme wanted [b, a, c] = .ok best := by
    rw [extreme_triple, better_of_not_precedes hab hprecedes]
    by_cases hlast : c.Precedes wanted b
    · exact ⟨c, better_of_precedes hlast⟩
    · exact ⟨b, better_of_not_precedes hbc.symm hlast⟩
  obtain ⟨best, hbest⟩ := hfound
  have hperm : [a, c, b].Perm [b, a, c] := by
    change ([a, c] ++ [b]).Perm ([b] ++ [a, c])
    exact List.perm_append_comm
  obtain ⟨best', hbest', -⟩ := h.extreme hperm hbest
  rw [extreme_triple, Except.bind_eq_ok] at hbest'
  obtain ⟨_, hmeet, -⟩ := hbest'
  exact (comparable_of_better hmeet).symm

/-- Three values one above the other: the last one is found, so it is not below the first, and
neither does it tie with it, since the second would be found then. -/
theorem precedes_of_determined (hup : kind.Determined .gt [a, b, c])
    (hac : a.Comparable c) (hab : a.Precedes .lt b) (hbc : b.Precedes .lt c) :
    a.Precedes .lt c := by
  have hba : b.Precedes .gt a := precedes_swap.mpr hab
  have hcb : c.Precedes .gt b := precedes_swap.mpr hbc
  have hlast : kind.extreme .gt [a, b, c] = .ok c := extreme_triple_of_precedes hba hcb
  obtain ⟨best, hbest, hextreme⟩ := hup.extreme (List.Perm.refl _) hlast
  rw [hlast] at hbest
  obtain rfl := Except.ok.inj hbest
  obtain ⟨order, horder⟩ := Option.isSome_iff_exists.mp hac
  cases order with
  | lt => exact horder
  | gt => exact absurd horder (hextreme.2 a List.mem_cons_self)
  | eq =>
    have hstays : ¬ c.Precedes .gt a := by
      intro hca
      rw [← precedes_swap, Precedes, Ordering.swap_gt, horder] at hca
      cases hca
    have hsecond : kind.extreme .gt [a, c, b] = .ok b := by
      rw [extreme_triple, better_of_not_precedes hac.symm hstays]
      exact better_of_precedes hba
    have hperm : [a, c, b].Perm [a, b, c] := (List.Perm.swap b c []).cons a
    obtain ⟨best, hbest, hextreme⟩ := hup.extreme hperm hlast
    rw [hsecond] at hbest
    obtain rfl := Except.ok.inj hbest
    exact absurd hcb (hextreme.2 c (by simp))

theorem orderly_of_determined
    (h : ∀ chosen : List Value, chosen ⊆ values → 2 ≤ chosen.length →
      min.Determined .lt chosen ∧ max.Determined .gt chosen) : Orderly values := by
  have hcomparable : ∀ a ∈ values, ∀ b ∈ values, ∀ c ∈ values,
      a.Comparable b → b.Comparable c → a.Comparable c := by
    intro a ha b hb c hc hab hbc
    obtain ⟨hmin, hmax⟩ := h [b, a, c] (by simp [ha, hb, hc]) (by simp)
    by_cases hprecedes : a.Precedes .lt b
    · refine comparable_of_determined hmax hab hbc fun habove => ?_
      rw [Precedes, hprecedes] at habove
      cases habove
    · exact comparable_of_determined hmin hab hbc hprecedes
  refine ⟨hcomparable, fun a ha b hb c hc hab hbc => ?_⟩
  obtain ⟨-, hmax⟩ := h [a, b, c] (by simp [ha, hb, hc]) (by simp)
  exact precedes_of_determined hmax (hcomparable a ha b hb c hc hab.comparable hbc.comparable)
    hab hbc

theorem determined_singleton (hwanted : wanted ≠ .eq) :
    kind.Determined wanted [value] ↔ value.looseEq value := by
  constructor
  · intro h
    rcases h [value] (List.Perm.refl _) with ⟨_, _, herror, -⟩ |
      ⟨best, best', hbest, hbest', hequal, -⟩
    · cases herror
    · obtain rfl := Except.ok.inj hbest
      obtain rfl := Except.ok.inj hbest'
      exact hequal
  · intro hequal other hperm
    obtain rfl := List.perm_singleton.mp hperm
    have hextreme : IsExtreme wanted [value] value := by
      refine ⟨List.mem_cons_self, fun other hother => ?_⟩
      obtain rfl := List.mem_singleton.mp hother
      exact not_precedes_self hwanted
    exact .inr ⟨value, value, rfl, rfl, hequal, hextreme, hextreme⟩

/-- All lists of two or more of some values have a least and a greatest one whatever their order, or
none whatever their order, exactly if the values are orderly. A value alone is its own extreme one,
but need not be loosely equal to itself. -/
theorem extremes_determined_iff (values : List Value) :
    ((∀ chosen : List Value, chosen ⊆ values → 2 ≤ chosen.length →
        min.Determined .lt chosen ∧ max.Determined .gt chosen) ↔ Orderly values) ∧
      ∀ value : Value, (min.Determined .lt [value] ∧ max.Determined .gt [value]) ↔
        value.looseEq value := by
  refine ⟨⟨orderly_of_determined, fun h chosen hsubset hlength => ?_⟩, fun value => ?_⟩
  · exact ⟨determined_of_orderly nofun h hsubset hlength,
      determined_of_orderly nofun h hsubset hlength⟩
  · have hmin : min.Determined .lt [value] ↔ value.looseEq value := determined_singleton nofun
    have hmax : max.Determined .gt [value] ↔ value.looseEq value := determined_singleton nofun
    rw [hmin, hmax, and_self]

/-- An integer has no order beside infinity, but a double between them lets a maximum be found. And
a single that is below a decimal that is below a double is above that double, which is found. -/
theorem extreme_depends_on_order :
    let infinity : Value := .double (.infinite false)
    let two : Value := .double (.ofRatio false 2 1)
    let single : Value := .float (.ofRatio false 1 10)
    let decimal : Value := .decimal ⟨1000000002, 10⟩
    let double : Value := .double (.ofRatio false 1000000005 10000000000)
    (max.extreme .gt [.int 1, two, infinity] = .ok infinity ∧
      ∃ error, max.extreme .gt [infinity, .int 1, two] = .error error) ∧
    (max.extreme .gt [single, decimal, double] = .ok double ∧ single.Precedes .gt double) := by
  intro infinity two single decimal double
  refine ⟨⟨?_, _, rfl⟩, ?_, by decide +kernel⟩
  · have htwo : two.Precedes .gt (.int 1) := by decide +kernel
    have hinfinity : infinity.Precedes .gt two := by decide +kernel
    exact extreme_triple_of_precedes htwo hinfinity
  · have hdecimal : decimal.Precedes .gt single := by decide +kernel
    have hdouble : double.Precedes .gt decimal := by decide +kernel
    exact extreme_triple_of_precedes hdecimal hdouble

end AggregateKind

end ObjectQuery
