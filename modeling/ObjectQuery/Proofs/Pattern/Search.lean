import ObjectQuery.Pattern.Search
import Mathlib.Data.Finset.Card
import Mathlib.Data.Nat.Bitwise
import Mathlib.Order.Monotone.Basic

/-!
The search finds what a pattern matches. Main statement: the positions that are reached from some
positions are those where matches end that begin there.
-/

namespace ObjectQuery.Pattern

variable {text : List Char} {p q : Pattern} {i j k n : Nat}

/-! ### Repetition as a number of matches -/

/-- So many matches one after the other. -/
inductive Chain (text : List Char) (p : Pattern) : Nat → Nat → Nat → Prop where
  | none (i : Nat) : Chain text p 0 i i
  | step (n i j k : Nat) (first : Matches text p i j) (rest : Chain text p n j k) :
      Chain text p (n + 1) i k

theorem exists_chain_of_matches_times {least : Nat} {most : Option Nat}
    (h : Matches text (.times p least most) i k) :
    ∃ n, least ≤ n ∧ (∀ m, most = some m → n ≤ m) ∧ Chain text p n i k := by
  generalize hq : Pattern.times p least most = q at h
  induction h generalizing least most with
  | times_none _ _ i =>
    cases hq
    exact ⟨0, Nat.le_refl 0, fun _ _ => Nat.zero_le _, .none i⟩
  | times_step _ _ i j k _ first room _ _ ih =>
    cases hq
    obtain ⟨n, hleast, hmost, hchain⟩ := ih rfl
    refine ⟨n + 1, by omega, ?_, .step n i j k first hchain⟩
    rintro m rfl
    have hn : n ≤ m - 1 := hmost (m - 1) rfl
    have hm : m ≠ 0 := fun hzero => room (congrArg some hzero)
    omega
  | _ => cases hq

theorem matches_times_of_chain {least : Nat} {most : Option Nat} (hleast : least ≤ n)
    (hmost : ∀ m, most = some m → n ≤ m) (h : Chain text p n i k) :
    Matches text (.times p least most) i k := by
  induction h generalizing least most with
  | none i =>
    obtain rfl : least = 0 := Nat.le_zero.mp hleast
    exact .times_none p most i
  | step n i j k first _ ih =>
    refine .times_step p least i j k most first ?_ (ih (by omega) ?_)
    · rintro rfl
      exact absurd (hmost 0 rfl) (by omega)
    · intro m hm
      obtain ⟨m', rfl, rfl⟩ := Option.map_eq_some_iff.mp hm
      have hle := hmost m' rfl
      omega

theorem matches_times_iff {least : Nat} {most : Option Nat} :
    Matches text (.times p least most) i k ↔
      ∃ n, least ≤ n ∧ (∀ m, most = some m → n ≤ m) ∧ Chain text p n i k :=
  ⟨exists_chain_of_matches_times, fun ⟨_, hleast, hmost, h⟩ =>
    matches_times_of_chain hleast hmost h⟩

theorem Chain.trans {m : Nat} (hij : Chain text p m i j) (hjk : Chain text p n j k) :
    Chain text p (m + n) i k := by
  induction hij with
  | none i => rwa [Nat.zero_add]
  | step m i i' j first _ ih =>
    rw [Nat.add_right_comm]
    exact .step (m + n) i i' k first (ih hjk)

theorem chain_add_iff {m : Nat} :
    Chain text p (m + n) i k ↔ ∃ j, Chain text p m i j ∧ Chain text p n j k := by
  constructor
  · intro h
    induction m generalizing i with
    | zero => exact ⟨i, .none i, Nat.zero_add n ▸ h⟩
    | succ m ih =>
      rw [Nat.add_right_comm] at h
      obtain _ | ⟨_, _, j, _, first, rest⟩ := h
      obtain ⟨j', hleft, hright⟩ := ih rest
      exact ⟨j', .step m i j j' first hleft, hright⟩
  · rintro ⟨j, hij, hjk⟩
    exact hij.trans hjk

theorem Matches.le_length (h : Matches text p i j) (hi : i ≤ text.length) : j ≤ text.length := by
  induction h with
  | empty | anchor | times_none => exact hi
  | one set i c at_i _ => exact (List.getElem?_eq_some_iff.mp at_i).1
  | seq p q i j k _ _ ihleft ihright => exact ihright (ihleft hi)
  | alt_left p q i j _ ih | alt_right p q i j _ ih | group captures p i j _ ih => exact ih hi
  | times_step p least i j k most _ _ _ ih ihrest => exact ihrest (ih hi)

theorem Chain.le_length (h : Chain text p n i j) (hi : i ≤ text.length) : j ≤ text.length := by
  induction h with
  | none i => exact hi
  | step n i j k first _ ih => exact ih (first.le_length hi)

theorem chain_succ_iff :
    Chain text p (n + 1) i k ↔ ∃ j, Chain text p n i j ∧ Matches text p j k := by
  rw [chain_add_iff]
  constructor
  · rintro ⟨j, hij, hjk⟩
    obtain _ | ⟨_, _, _, _, first, rest⟩ := hjk
    cases rest
    exact ⟨j, hij, first⟩
  · rintro ⟨j, hij, hjk⟩
    exact ⟨j, hij, .step 0 j k k hjk (.none k)⟩

theorem exists_chain_le (h : Chain text p n i j) (hi : i ≤ text.length) :
    ∃ m, m ≤ text.length + 1 ∧ m ≤ n ∧ Chain text p m i j := by
  classical
  by_cases hn : n ≤ text.length + 1
  · exact ⟨n, hn, Nat.le_refl n, h⟩
  let reached (n : Nat) : Finset Nat :=
    (Finset.range (text.length + 1)).filter fun j => ∃ m ≤ n, Chain text p m i j
  have hreached : ∀ n j, j ∈ reached n ↔ j ≤ text.length ∧ ∃ m ≤ n, Chain text p m i j := by
    intro n j
    rw [Finset.mem_filter, Finset.mem_range, Nat.lt_succ_iff]
  have hsucc : ∀ n j, j ∈ reached (n + 1) ↔
      j ∈ reached n ∨ ∃ i' ∈ reached n, Matches text p i' j := by
    intro n j
    simp only [hreached]
    constructor
    · rintro ⟨hj, m, hm, hchain⟩
      rcases Nat.lt_or_eq_of_le hm with hlt | rfl
      · exact .inl ⟨hj, m, Nat.le_of_lt_succ hlt, hchain⟩
      · obtain ⟨i', hfirst, hlast⟩ := chain_succ_iff.mp hchain
        exact .inr ⟨i', ⟨hfirst.le_length hi, n, Nat.le_refl n, hfirst⟩, hlast⟩
    · rintro (⟨hj, m, hm, hchain⟩ | ⟨i', ⟨hi', m, hm, hchain⟩, hlast⟩)
      · exact ⟨hj, m, Nat.le_succ_of_le hm, hchain⟩
      · exact ⟨hlast.le_length hi', m + 1, Nat.succ_le_succ hm,
          chain_succ_iff.mpr ⟨i', hchain, hlast⟩⟩
  have hsubset : ∀ n, reached n ⊆ reached (n + 1) := fun n j hj => (hsucc n j).mpr (.inl hj)
  have hmono : Monotone fun n => (reached n).card :=
    monotone_nat_of_le_succ fun n => Finset.card_le_card (hsubset n)
  have hbound : ∀ n, (reached n).card ≤ text.length + 1 := by
    intro n
    refine (Finset.card_filter_le _ _).trans ?_
    rw [Finset.card_range]
  -- Once a step reaches nothing new, no further one does.
  have hstops : ∀ n, (reached n).card = (reached (n + 1)).card →
      (reached (n + 1)).card = (reached (n + 2)).card := by
    intro n hcard
    have hsame : reached n = reached (n + 1) :=
      Finset.eq_of_subset_of_card_le (hsubset n) (Nat.le_of_eq hcard.symm)
    congr 1
    ext j
    rw [hsucc (n + 1), ← hsame, ← hsucc n, hsame]
  have hcard := Nat.stabilises_of_monotone hmono hbound hstops (Nat.le_of_not_le hn)
  have hall : reached (text.length + 1) = reached n := by
    refine Finset.eq_of_subset_of_card_le ?_ (Nat.le_of_eq hcard)
    exact monotone_nat_of_le_succ hsubset (Nat.le_of_not_le hn)
  have hj : j ∈ reached n := (hreached n j).mpr ⟨h.le_length hi, n, Nat.le_refl n, h⟩
  rw [← hall, hreached] at hj
  obtain ⟨-, m, hm, hchain⟩ := hj
  exact ⟨m, hm, by omega, hchain⟩

/-! ### Positions as bits -/

theorem testBit_ofBits (bits : List Bool) (i : Nat) :
    (ofBits bits).testBit i = bits[i]?.getD false := by
  induction bits generalizing i with
  | nil => simp [ofBits]
  | cons bit bits ih =>
    change (2 * ofBits bits + bit.toNat).testBit i = _
    cases i with
    | zero => cases bit <;> simp [Nat.testBit_zero]
    | succ i =>
      have hhalf : (2 * ofBits bits + bit.toNat) / 2 = ofBits bits := by
        cases bit <;> simp; omega
      rw [Nat.testBit_succ, hhalf, ih, List.getElem?_cons_succ]

theorem getElem?_surroundings (before : Option Char) (text : List Char) (hi : i ≤ text.length) :
    (surroundings before text)[i]? =
      some (if i = 0 then before else text[i - 1]?, text[i]?) := by
  induction text generalizing before i with
  | nil =>
    obtain rfl : i = 0 := Nat.le_zero.mp hi
    rfl
  | cons c text ih =>
    cases i with
    | zero => rfl
    | succ i =>
      rw [surroundings, List.getElem?_cons_succ, ih (some c) (Nat.le_of_succ_le_succ hi)]
      cases i <;> rfl

/-- The positions of a text. -/
def Inside (text : List Char) (reached : Nat) : Prop := ∀ i, reached.testBit i → i ≤ text.length

/-- The step takes positions to where matches of the pattern end. -/
def Follows (text : List Char) (p : Pattern) (step : Nat → Nat) : Prop :=
  ∀ reached, Inside text reached → ∀ j,
    (step reached).testBit j ↔ ∃ i, reached.testBit i ∧ Matches text p i j

variable {step : Nat → Nat} {reached newest count : Nat}

theorem Follows.inside (h : Follows text p step) (hreached : Inside text reached) :
    Inside text (step reached) := by
  intro j hj
  obtain ⟨i, hi, hmatch⟩ := (h reached hreached j).mp hj
  exact hmatch.le_length (hreached i hi)

theorem testBit_iterate (h : Follows text p step) (hreached : Inside text reached) :
    (iterate step count reached).testBit j ↔ ∃ i, reached.testBit i ∧ Chain text p count i j := by
  induction count generalizing reached with
  | zero =>
    constructor
    · exact fun hj => ⟨j, hj, .none j⟩
    · rintro ⟨i, hi, hchain⟩
      cases hchain
      exact hi
  | succ count ih =>
    rw [iterate]
    split
    · rename_i hzero
      simp [hzero]
    · rw [ih (h.inside hreached)]
      constructor
      · rintro ⟨i', hi', hrest⟩
        obtain ⟨i, hi, hfirst⟩ := (h reached hreached i').mp hi'
        exact ⟨i, hi, .step count i i' j hfirst hrest⟩
      · rintro ⟨i, hi, hchain⟩
        obtain _ | ⟨_, _, i', _, hfirst, hrest⟩ := hchain
        exact ⟨i', (h reached hreached i').mpr ⟨i, hi, hfirst⟩, hrest⟩

/-- All that follows on what is reached is reached itself, but for what follows on the newest. -/
structure Frontier (text : List Char) (p : Pattern) (reached newest : Nat) : Prop where
  inside : Inside text reached
  subset : ∀ i, newest.testBit i → reached.testBit i
  closed : ∀ i, reached.testBit i → ¬ newest.testBit i → ∀ j, Matches text p i j → reached.testBit j

theorem testBit_new (found reached i : Nat) :
    (found ^^^ (found &&& reached)).testBit i ↔ found.testBit i ∧ ¬ reached.testBit i := by
  rw [Nat.testBit_xor, Nat.testBit_and]
  cases found.testBit i <;> cases reached.testBit i <;> simp

namespace Frontier

theorem exists_newest_of_chain (h : Frontier text p reached newest) (hi : reached.testBit i)
    (hchain : Chain text p n i j) :
    reached.testBit j ∨ ∃ m ≤ n, ∃ i', newest.testBit i' ∧ Chain text p m i' j := by
  induction hchain with
  | none i => exact .inl hi
  | step n i i' j first rest ih =>
    by_cases hnew : newest.testBit i
    · exact .inr ⟨n + 1, Nat.le_refl _, i, hnew, .step n i i' j first rest⟩
    · rcases ih (h.closed i hi hnew i' first) with hj | ⟨m, hm, hchain⟩
      · exact .inl hj
      · exact .inr ⟨m, Nat.le_succ_of_le hm, hchain⟩

section Next

variable {new : Nat} (h : Frontier text p reached newest) (hstep : Follows text p step)
  (hnew : ∀ i, new.testBit i ↔ (step newest).testBit i ∧ ¬ reached.testBit i)

include h hstep hnew

theorem exists_of_new (hj : new.testBit j) : ∃ i, newest.testBit i ∧ Matches text p i j :=
  (hstep newest (fun i hi => h.inside i (h.subset i hi)) j).mp ((hnew j).mp hj).1

theorem reached_or_new (hi : reached.testBit i) (hmatch : Matches text p i j) :
    reached.testBit j ∨ new.testBit j := by
  by_cases hiNew : newest.testBit i
  · by_cases hj : reached.testBit j
    · exact .inl hj
    · have hfound := (hstep newest (fun i hi => h.inside i (h.subset i hi)) j).mpr
        ⟨i, hiNew, hmatch⟩
      exact .inr ((hnew j).mpr ⟨hfound, hj⟩)
  · exact .inl (h.closed i hi hiNew j hmatch)

theorem next : Frontier text p (reached ||| new) new := by
  have hboth : ∀ i, (reached ||| new).testBit i ↔ reached.testBit i ∨ new.testBit i := by
    intro i
    rw [Nat.testBit_or, Bool.or_eq_true]
  refine ⟨fun i hi => ?_, fun i hi => (hboth i).mpr (.inr hi), fun i hi hiNew j hmatch => ?_⟩
  · rcases (hboth i).mp hi with hi | hi
    · exact h.inside i hi
    · obtain ⟨i', hi', hmatch⟩ := h.exists_of_new hstep hnew hi
      exact hmatch.le_length (h.inside i' (h.subset i' hi'))
  · exact (hboth j).mpr (h.reached_or_new hstep hnew (((hboth i).mp hi).resolve_right hiNew) hmatch)

end Next

end Frontier

theorem testBit_spread (hstep : Follows text p step) (h : Frontier text p reached newest) :
    (spread step count reached newest).testBit j ↔
      reached.testBit j ∨ ∃ m ≤ count, ∃ i, newest.testBit i ∧ Chain text p m i j := by
  induction count generalizing reached newest with
  | zero =>
    rw [spread]
    refine ⟨.inl, ?_⟩
    rintro (hj | ⟨m, hm, i, hi, hchain⟩)
    · exact hj
    · obtain rfl : m = 0 := Nat.le_zero.mp hm
      cases hchain
      exact h.subset _ hi
  | succ count ih =>
    have hnew := testBit_new (step newest) reached
    rw [spread]
    generalize step newest ^^^ (step newest &&& reached) = new at hnew
    have hnext := h.next hstep hnew
    split
    · rename_i hzero
      rw [hzero, Nat.or_zero] at hnext
      refine ⟨.inl, ?_⟩
      rintro (hj | ⟨m, -, i, hi, hchain⟩)
      · exact hj
      · rcases hnext.exists_newest_of_chain (h.subset i hi) hchain with hj | ⟨_, _, i', hi', -⟩
        · exact hj
        · rw [Nat.zero_testBit] at hi'
          cases hi'
    · rw [ih hnext, Nat.testBit_or, Bool.or_eq_true]
      constructor
      · rintro ((hj | hj) | ⟨m, hm, i, hi, hchain⟩)
        · exact .inl hj
        · obtain ⟨i, hi, hmatch⟩ := h.exists_of_new hstep hnew hj
          exact .inr ⟨1, by omega, i, hi, .step 0 i j j hmatch (.none j)⟩
        · obtain ⟨i', hi', hmatch⟩ := h.exists_of_new hstep hnew hi
          exact .inr ⟨m + 1, by omega, i', hi', .step m i' i j hmatch hchain⟩
      · rintro (hj | ⟨m, hm, i, hi, hchain⟩)
        · exact .inl (.inl hj)
        obtain _ | ⟨m, _, i', _, hfirst, hrest⟩ := hchain
        · exact .inl (.inl (h.subset j hi))
        have hi' := h.reached_or_new hstep hnew (h.subset i hi) hfirst
        rw [← Bool.or_eq_true, ← Nat.testBit_or] at hi'
        rcases hnext.exists_newest_of_chain hi' hrest with hj | ⟨m', hm', i'', hi'', hchain'⟩
        · rw [Nat.testBit_or, Bool.or_eq_true] at hj
          exact .inl hj
        · exact .inr ⟨m', by omega, i'', hi'', hchain'⟩

/-! ### Patterns -/

theorem testBit_spread_iterate (h : Follows text p step) (hreached : Inside text reached)
    (least : Nat) :
    (spread step count (iterate step least reached) (iterate step least reached)).testBit j ↔
      ∃ i, reached.testBit i ∧ ∃ m ≤ count, Chain text p (least + m) i j := by
  have hstart : Inside text (iterate step least reached) := by
    intro i hi
    obtain ⟨i', hi', hchain⟩ := (testBit_iterate h hreached).mp hi
    exact hchain.le_length (hreached i' hi')
  rw [testBit_spread h ⟨hstart, fun _ hi => hi, fun _ hi hiNew => absurd hi hiNew⟩]
  simp only [testBit_iterate h hreached, chain_add_iff]
  constructor
  · rintro (⟨i, hi, hchain⟩ | ⟨m, hm, i', ⟨i, hi, hchain⟩, hrest⟩)
    · exact ⟨i, hi, 0, Nat.zero_le _, j, hchain, .none j⟩
    · exact ⟨i, hi, m, hm, i', hchain, hrest⟩
  · rintro ⟨i, hi, m, hm, i', hchain, hrest⟩
    exact .inr ⟨m, hm, i', ⟨i, hi, hchain⟩, hrest⟩

theorem times_follows (h : Follows text p ((locate text p).advance text.length)) (least : Nat)
    (most : Option Nat) :
    Follows text (.times p least most)
      ((locate text (.times p least most)).advance text.length) := by
  intro reached hreached j
  -- Further steps than there are positions reach nothing more.
  have hshorten : ∀ {i n : Nat}, reached.testBit i → Chain text p n i j → least ≤ n →
      ∃ m, m ≤ text.length + 1 ∧ m ≤ n - least ∧ Chain text p (least + m) i j := by
    intro i n hi hchain hleast
    rw [← Nat.add_sub_cancel' hleast] at hchain
    obtain ⟨i', hfirst, hrest⟩ := chain_add_iff.mp hchain
    obtain ⟨m, hlength, hm, hshort⟩ := exists_chain_le hrest (hfirst.le_length (hreached i hi))
    exact ⟨m, hlength, hm, hfirst.trans hshort⟩
  simp only [matches_times_iff, locate, Located.advance]
  cases most with
  | none =>
    simp only [Option.any_none, Bool.false_eq_true, if_false]
    rw [testBit_spread_iterate h hreached]
    constructor
    · rintro ⟨i, hi, m, -, hchain⟩
      exact ⟨i, hi, least + m, Nat.le_add_right least m, nofun, hchain⟩
    · rintro ⟨i, hi, n, hleast, -, hchain⟩
      obtain ⟨m, hlength, -, hshort⟩ := hshorten hi hchain hleast
      exact ⟨i, hi, m, hlength, hshort⟩
  | some most =>
    simp only [Option.any_some, decide_eq_true_eq, Option.some.injEq, forall_eq']
    split
    · refine ⟨fun hj => by simp at hj, ?_⟩
      rintro ⟨i, -, n, hleast, hmost, -⟩
      omega
    rw [testBit_spread_iterate h hreached]
    constructor
    · rintro ⟨i, hi, m, hm, hchain⟩
      exact ⟨i, hi, least + m, Nat.le_add_right least m, by omega, hchain⟩
    · rintro ⟨i, hi, n, hleast, hmost, hchain⟩
      obtain ⟨m, hlength, hm, hshort⟩ := hshorten hi hchain hleast
      exact ⟨i, hi, m, by omega, hshort⟩

theorem one_follows (text : List Char) (set : CharSet) :
    Follows text (.one set) ((locate text (.one set)).advance text.length) := by
  intro reached _ j
  rw [locate, Located.advance, Nat.testBit_shiftLeft, Bool.and_eq_true, decide_eq_true_eq,
    Nat.testBit_and, Bool.and_eq_true, testBit_ofBits, List.getElem?_map]
  constructor
  · rintro ⟨hj, hi, hmark⟩
    cases hc : text[j - 1]? with
    | none =>
      rw [hc] at hmark
      cases hmark
    | some c =>
      rw [hc] at hmark
      have hmatch := Matches.one set (j - 1) c hc hmark
      rw [Nat.sub_add_cancel hj] at hmatch
      exact ⟨j - 1, hi, hmatch⟩
  · rintro ⟨i, hi, hmatch⟩
    obtain _ | ⟨_, _, c, hc, hmem⟩ := hmatch
    rw [Nat.add_sub_cancel, hc]
    exact ⟨Nat.le_add_left 1 i, hi, hmem⟩

theorem anchor_follows (text : List Char) (a : Anchor) :
    Follows text (.anchor a) ((locate text (.anchor a)).advance text.length) := by
  intro reached hreached j
  rw [locate, Located.advance, Nat.testBit_and, Bool.and_eq_true, testBit_ofBits, List.getElem?_map]
  constructor
  · rintro ⟨hj, hmark⟩
    have hlength := hreached j hj
    rw [getElem?_surroundings none text hlength] at hmark
    exact ⟨j, hj, .anchor a j hlength hmark⟩
  · rintro ⟨i, hi, hmatch⟩
    obtain _ | _ | ⟨_, _, hlength, hholds⟩ := hmatch
    rw [getElem?_surroundings none text hlength]
    exact ⟨hi, hholds⟩

/-- A located pattern takes positions to those where its matches end. -/
theorem advance_follows (text : List Char) (p : Pattern) :
    Follows text p ((locate text p).advance text.length) := by
  induction p with
  | empty =>
    intro reached _ j
    refine ⟨fun hj => ⟨j, hj, .empty j⟩, ?_⟩
    rintro ⟨i, hi, hmatch⟩
    cases hmatch
    exact hi
  | one set => exact one_follows text set
  | anchor a => exact anchor_follows text a
  | seq p q ihp ihq =>
    intro reached hreached j
    rw [locate, Located.advance, ihq _ (ihp.inside hreached)]
    simp only [ihp reached hreached]
    constructor
    · rintro ⟨i', ⟨i, hi, hleft⟩, hright⟩
      exact ⟨i, hi, .seq p q i i' j hleft hright⟩
    · rintro ⟨i, hi, hmatch⟩
      cases hmatch with
      | seq _ _ _ i' _ hleft hright => exact ⟨i', ⟨i, hi, hleft⟩, hright⟩
  | alt p q ihp ihq =>
    intro reached hreached j
    rw [locate, Located.advance, Nat.testBit_or, Bool.or_eq_true, ihp reached hreached,
      ihq reached hreached]
    constructor
    · rintro (⟨i, hi, hmatch⟩ | ⟨i, hi, hmatch⟩)
      · exact ⟨i, hi, .alt_left p q i j hmatch⟩
      · exact ⟨i, hi, .alt_right p q i j hmatch⟩
    · rintro ⟨i, hi, hmatch⟩
      cases hmatch with
      | alt_left _ _ _ _ hmatch => exact .inl ⟨i, hi, hmatch⟩
      | alt_right _ _ _ _ hmatch => exact .inr ⟨i, hi, hmatch⟩
  | times p least most ih => exact times_follows ih least most
  | group captures p ih =>
    intro reached hreached j
    rw [locate, ih reached hreached]
    constructor
    · rintro ⟨i, hi, hmatch⟩
      exact ⟨i, hi, .group captures p i j hmatch⟩
    · rintro ⟨i, hi, hmatch⟩
      cases hmatch with
      | group _ _ _ _ hmatch => exact ⟨i, hi, hmatch⟩

/-- The search tells whether there is a match anywhere. -/
theorem isMatch_iff (p : Pattern) (text : String) :
    p.isMatch text ↔ ∃ i ≤ text.toList.length, ∃ j, Matches text.toList p i j := by
  have hall : ∀ i, (Nat.pow 2 (text.toList.length + 1) - 1).testBit i ↔ i ≤ text.toList.length := by
    intro i
    change (2 ^ (text.toList.length + 1) - 1).testBit i ↔ _
    rw [Nat.testBit_two_pow_sub_one, decide_eq_true_eq, Nat.lt_succ_iff]
  have hfollows := advance_follows text.toList p _ fun i => (hall i).mp
  simp only [hall] at hfollows
  rw [isMatch, bne_iff_ne]
  constructor
  · intro hne
    obtain ⟨j, hj⟩ := Nat.exists_testBit_of_ne_zero hne
    obtain ⟨i, hi, hmatch⟩ := (hfollows j).mp hj
    exact ⟨i, hi, j, hmatch⟩
  · rintro ⟨i, hi, j, hmatch⟩ hzero
    have hj := (hfollows j).mpr ⟨i, hi, hmatch⟩
    rw [hzero, Nat.zero_testBit] at hj
    cases hj

end ObjectQuery.Pattern
