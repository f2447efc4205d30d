import ObjectQuery.Method.Text
import ObjectQuery.Proofs.Pattern.Reader
import ObjectQuery.Proofs.Pattern.Search
import ObjectQuery.Proofs.Pattern.Size

/-!
What a pattern means for a whole text, and which patterns mean the same when their text is put
between anchors.
-/

namespace ObjectQuery.Pattern

open Scan

/-! ### Reading between anchors -/

/-- The place where a text begins. -/
def Place.start (cs : List Char) : Place := ⟨cs, .default, []⟩

/-- What a text says as a pattern, however large it is. -/
def parse? (text : String) : Option (Nested Pattern) := do
  let (parts, place) ← alternatives (2 * text.toList.length + 2) (.start text.toList)
  if place.rest.isEmpty then some (choice parts) else none

/-- Patterns that are neither nested too deep nor need too large a machine. -/
def Nested.isWithinLimits (p : Nested Pattern) : Bool := p.depth ≤ depthLimit && p.value.fits

theorem read?_eq (text : String) :
    read? text = (parse? text).bind fun p => if p.isWithinLimits then some p.value else none := by
  rw [read?, parse?]
  change Option.bind _ _ = Option.bind (Option.bind _ _) _
  rw [Option.bind_assoc]
  refine congrArg _ (funext fun result => ?_)
  obtain ⟨parts, place⟩ := result
  cases hrest : place.rest.isEmpty <;> simp [Nested.isWithinLimits, hrest]

theorem sequence_caret (fuel : Nat) (cs : List Char) :
    sequence (fuel + 1) [] (.start ('^' :: cs)) =
      sequence fuel [some (.flat (.anchor .textStart))] (.start cs) := by
  rw [sequence_succ, bind_of_some (skipBlank_of_plain rfl), bind_of_some peek?_apply]
  exact bind_of_some (m := primitive) rfl

theorem sequence_group (fuel : Nat) (parts : List Part) (cs : List Char) :
    sequence (fuel + 1) parts (.start ('(' :: '?' :: ':' :: cs)) =
      sequenceGroup fuel parts .default (.group false .default) (.start cs) := by
  rw [sequence_succ, bind_of_some (skipBlank_of_plain rfl), bind_of_some peek?_apply]
  exact (bind_of_some flags_apply).trans (bind_of_some (m := opening) rfl)

theorem sequence_dollar (fuel : Nat) (parts : List Part) (groupNames : List String) :
    sequence (fuel + 2) parts ⟨['$'], .default, groupNames⟩ =
      some (joined (some (.flat (.anchor .textEnd)) :: parts), ⟨[], .default, groupNames⟩) := by
  rw [sequence_succ, bind_of_some (skipBlank_of_plain rfl), bind_of_some peek?_apply]
  have hdollar : primitive ⟨['$'], .default, groupNames⟩ =
      some (.anchor .textEnd, ⟨[], .default, groupNames⟩) := rfl
  exact (bind_of_some hdollar).trans (sequence_of_nil _ _ rfl)

/-- The sequence that a group between anchors makes. -/
def enclosedParts (p : Nested Pattern) : List Part :=
  [some (.flat (.anchor .textEnd)), some ⟨.group false p.value, p.depth + 1⟩,
    some (.flat (.anchor .textStart))]

theorem choice_enclosedParts (p : Nested Pattern) :
    choice [joined (enclosedParts p)] = ⟨enclosed p.value, p.depth + 2⟩ := by
  simp [choice, joined, enclosedParts, Nested.depthOf, Nested.flat, oneOf, enclosed]

theorem alternatives_anchored {fuel : Nat} {cs : List Char} {parts : List (Nested Pattern)}
    {flags : Flags} {groupNames : List String}
    (h : alternatives (fuel + 2) (.start (cs ++ [')', '$'])) =
      some (parts, ⟨[')', '$'], flags, groupNames⟩)) :
    alternatives (fuel + 5) (.start ('^' :: '(' :: '?' :: ':' :: (cs ++ [')', '$']))) =
      some ([joined (enclosedParts (choice parts))], ⟨[], .default, groupNames⟩) := by
  have hgroup : sequenceGroup (fuel + 2) [some (.flat (.anchor .textStart))] .default
      (.group false .default) (.start (cs ++ [')', '$'])) =
        some (joined (enclosedParts (choice parts)), ⟨[], .default, groupNames⟩) := by
    rw [sequenceGroup, bind_of_some (setFlags_apply .default)]
    refine (bind_of_some h).trans ?_
    have hexpect : expect ')' ⟨[')', '$'], flags, groupNames⟩ =
      some ((), ⟨['$'], flags, groupNames⟩) :=
      rfl
    refine (bind_of_some hexpect).trans ?_
    exact (bind_of_some (setFlags_apply .default)).trans (sequence_dollar _ _ _)
  rw [alternatives_succ]
  refine (bind_of_some ((sequence_caret _ _).trans ((sequence_group _ _ _).trans hgroup))).trans ?_
  rfl

theorem exists_of_alternatives_anchored {fuel : Nat} {cs : List Char}
    {found : List (Nested Pattern)} {last : Place}
    (h : alternatives (fuel + 3) (.start ('^' :: '(' :: '?' :: ':' :: cs)) = some (found, last)) :
    ∃ parts after behind, alternatives fuel (.start cs) = some (parts, after) ∧
      after.rest = ')' :: behind := by
  rw [alternatives_succ] at h
  obtain ⟨first, middle, hfirst, -⟩ := bind_eq_some.mp h
  rw [sequence_caret, sequence_group, sequenceGroup, bind_of_some (setFlags_apply .default)]
    at hfirst
  obtain ⟨parts, after, hparts, hfirst⟩ := bind_eq_some.mp hfirst
  obtain ⟨_, middle, hexpect, -⟩ := bind_eq_some.mp hfirst
  cases hrest : after.rest with
  | nil =>
    rw [expect, bind_of_none (next_of_nil hrest)] at hexpect
    cases hexpect
  | cons c behind =>
    by_cases hc : c = ')'
    · subst hc
      exact ⟨parts, after, behind, hparts, hrest⟩
    · rw [expect, bind_of_some (next_of_cons hrest), if_pos (bne_iff_ne.mpr hc)] at hexpect
      cases hexpect

theorem toList_anchored (pattern : String) :
    (anchored pattern).toList = '^' :: '(' :: '?' :: ':' :: (pattern.toList ++ [')', '$']) := by
  simp [anchored, String.toList_append]

theorem parse?_of_toList {text : String} {cs : List Char} (h : text.toList = cs) :
    parse? text = (alternatives (2 * cs.length + 2) (.start cs)).bind fun (parts, place) =>
      if place.rest.isEmpty then some (choice parts) else none := by
  subst h
  rfl

theorem parse?_anchored_eq (pattern : String) :
    parse? (anchored pattern) = (alternatives (2 * pattern.toList.length + 11 + 3)
      (.start ('^' :: '(' :: '?' :: ':' :: (pattern.toList ++ [')', '$'])))).bind
      fun (parts, place) =>
        if place.rest.isEmpty then some (choice parts) else none := by
  rw [parse?_of_toList (toList_anchored pattern)]
  have hlength : 2 * ('^' :: '(' :: '?' :: ':' :: (pattern.toList ++ [')', '$'])).length + 2 =
      2 * pattern.toList.length + 11 + 3 := by
    simp only [List.length_cons, List.length_append, List.length_nil]
    omega
  rw [hlength]

theorem bracketed_start (cs : List Char) :
    Bracketed nowhere (alternatives (2 * cs.length + 2))
      (fun s => alternatives (2 * cs.length + 4 + 7 * s.length)) (.start cs) :=
  bracketed_alternatives (Nat.le_refl _) fun _ => by
    change 2 * cs.length + 2 ≤ _
    omega

theorem parse?_bracket_eq (pattern : String) :
    parse? (pattern ++ ")") = (alternatives (2 * pattern.toList.length + 4)
      (.start (pattern.toList ++ [')']))).bind fun (parts, place) =>
        if place.rest.isEmpty then some (choice parts) else none := by
  have htext : (pattern ++ ")").toList = pattern.toList ++ [')'] := by simp [String.toList_append]
  rw [parse?_of_toList htext, List.length_append]
  rfl

theorem parse?_eq_some {text : String} {p : Nested Pattern} (h : parse? text = some p) :
    ∃ parts after,
      alternatives (2 * text.toList.length + 2) (.start text.toList) = some (parts, after) ∧
      after.rest = [] ∧ choice parts = p := by
  rw [parse?_of_toList rfl] at h
  obtain ⟨⟨parts, after⟩, hparts, h⟩ := Option.bind_eq_some_iff.mp h
  refine ⟨parts, after, hparts, ?_⟩
  simpa using h

theorem parse?_of_alternatives {text : String} {parts : List (Nested Pattern)} {after : Place}
    (h : alternatives (2 * text.toList.length + 2) (.start text.toList) = some (parts, after)) :
    parse? text = if after.rest.isEmpty then some (choice parts) else none := by
  rw [parse?_of_toList rfl, h]
  rfl

/-- A pattern is read between anchors as a group, unless a comment of its own takes the end of the
group in. -/
theorem parse?_anchored {pattern : String} {p : Nested Pattern} (h : parse? pattern = some p) :
    parse? (anchored pattern) =
      if parse? (pattern ++ ")") = none then some ⟨enclosed p.value, p.depth + 2⟩ else none := by
  obtain ⟨parts, after, hparts, hrest, rfl⟩ := parse?_eq_some h
  cases bracketed_start pattern.toList with
  | kept parts' after' alone beside =>
    obtain ⟨rfl, rfl⟩ : parts = parts' ∧ after = after' := by simpa [hparts] using alone
    have hbracket : parse? (pattern ++ ")") = none := by
      have hbeside : alternatives (2 * pattern.toList.length + 4)
        (.start (pattern.toList ++ [')'])) =
          some (parts, after.closed []) := beside []
      rw [parse?_bracket_eq, hbeside]
      simp [Place.closed]
    have hbeside : alternatives (2 * pattern.toList.length + 9 + 2)
        (.start (pattern.toList ++ [')', '$'])) = some (parts, after.closed ['$']) := beside ['$']
    rw [Place.closed, hrest] at hbeside
    rw [if_pos hbracket, parse?_anchored_eq]
    change (alternatives (2 * pattern.toList.length + 9 + 5) _).bind _ = _
    rw [alternatives_anchored hbeside, ← choice_enclosedParts]
    rfl
  | past alone _ =>
    rw [hparts] at alone
    cases alone
  | hidden alike beside =>
    have hbracket : parse? (pattern ++ ")") = some (choice parts) := by
      have halike : alternatives (2 * pattern.toList.length + 4)
        (.start (pattern.toList ++ [')'])) =
          _ := alike [] List.not_mem_nil
      rw [parse?_bracket_eq, halike, hparts]
      simp [hrest]
    rw [hbracket, if_neg (Option.some_ne_none _)]
    cases hanchored : parse? (anchored pattern) with
    | none => rfl
    | some q =>
      rw [parse?_anchored_eq] at hanchored
      obtain ⟨⟨found, last⟩, hfound, -⟩ := Option.bind_eq_some_iff.mp hanchored
      obtain ⟨parts', after', behind, hparts', hrest'⟩ := exists_of_alternatives_anchored hfound
      have halike : alternatives (2 * pattern.toList.length + 11)
        (.start (pattern.toList ++ [')', '$'])) =
          _ := alike ['$'] (by decide)
      rw [halike, hparts] at hparts'
      cases hparts'
      rw [hrest] at hrest'
      cases hrest'

theorem parse?_front_ne_none {fuel : Nat} {front : String} {back : List Char}
    {parts : List (Nested Pattern)} {after : Place} (hfuel : 2 * front.toList.length + 2 ≤ fuel)
    (h : alternatives fuel (.start (front.toList ++ ')' :: back)) = some (parts, after))
    (hrest : after.rest = ')' :: back) : parse? front ≠ none := by
  have hlong : ¬ after.rest <:+ back := by
    intro hsuffix
    have hlength := hsuffix.length_le
    rw [hrest, List.length_cons] at hlength
    omega
  have hread : Bracketed nowhere (alternatives (2 * front.toList.length + 2))
      (fun _ => alternatives fuel) (.start front.toList) :=
    bracketed_alternatives (Nat.le_refl _) fun _ => hfuel
  cases hread with
  | kept parts' after' alone beside =>
    have hbeside : alternatives fuel (.start (front.toList ++ ')' :: back)) =
        some (parts', after'.closed back) := beside back
    rw [h] at hbeside
    cases hbeside
    have hnil : after'.rest = [] := List.append_left_eq_self.mp hrest
    rw [parse?_of_alternatives alone, hnil]
    exact Option.some_ne_none _
  | past _ beside =>
    rcases beside back parts after h with hsuffix | ⟨_, hnowhere, _⟩
    · exact absurd hsuffix hlong
    · exact hnowhere.elim
  | hidden _ beside => exact absurd (beside back parts after h) hlong

/-- A text that is no pattern alone, but one between anchors, has a bracket that closes the group
around it behind a pattern. -/
theorem exists_front_of_parse?_anchored {pattern : String} {q : Nested Pattern}
    (h : parse? pattern = none) (hanchored : parse? (anchored pattern) = some q) :
    ∃ front back, pattern = front ++ ")" ++ back ∧ parse? front ≠ none := by
  rw [parse?_anchored_eq] at hanchored
  obtain ⟨⟨found, last⟩, hfound, -⟩ := Option.bind_eq_some_iff.mp hanchored
  obtain ⟨parts, after, behind, hparts, hrest⟩ := exists_of_alternatives_anchored hfound
  have hshort : ¬ after.rest <:+ ['$'] := by
    rw [hrest]
    intro hsuffix
    rcases List.suffix_cons_iff.mp hsuffix with heq | hnil
    · cases heq
    · cases List.suffix_nil.mp hnil
  cases bracketed_start pattern.toList with
  | kept parts' after' alone beside =>
    have hbeside : alternatives (2 * pattern.toList.length + 11)
      (.start (pattern.toList ++ [')', '$'])) =
        some (parts', after'.closed ['$']) := beside ['$']
    rw [hparts] at hbeside
    cases hbeside
    rw [parse?_of_alternatives alone] at h
    -- The reading alone ends before a bracket of the text's own.
    cases hstop : after'.rest with
    | nil =>
      rw [hstop] at h
      cases h
    | cons c back =>
      rw [Place.closed, hstop] at hrest
      cases hrest
      obtain ⟨front, hfront⟩ := (shrinks_alternatives _ _).suffix alone
      have hpattern : pattern.toList = (String.ofList front).toList ++ ')' :: back := by
        rw [String.toList_ofList, ← hstop]
        exact hfront.symm
      refine ⟨String.ofList front, String.ofList back, ?_, ?_⟩
      · apply String.toList_injective
        simp [hpattern, String.toList_append]
      · rw [hpattern] at alone
        refine parse?_front_ne_none ?_ alone hstop
        rw [List.length_append]
        omega
  | past _ beside =>
    rcases beside ['$'] parts after hparts with hsuffix | ⟨_, hnowhere, _⟩
    · exact absurd hsuffix hshort
    · exact hnowhere.elim
  | hidden _ beside => exact absurd (beside ['$'] parts after hparts) hshort

/-! ### Matching whole texts -/

/-- The pattern takes all of the text, from its beginning to its end. -/
def Covers (p : Pattern) (text : String) : Prop := Matches text.toList p 0 text.toList.length

theorem textStart_holds_iff {text : List Char} {i : Nat} (hi : i ≤ text.length)
    (after : Option Char) :
    Anchor.textStart.holds (charBefore text i) after ↔ i = 0 := by
  rw [Anchor.holds, charBefore]
  by_cases hzero : i = 0
  · simp [hzero]
  · rw [if_neg hzero, List.getElem?_eq_getElem (by omega)]
    simp [hzero]

theorem textEnd_holds_iff {text : List Char} {i : Nat} (hi : i ≤ text.length)
    (before : Option Char) :
    Anchor.textEnd.holds before text[i]? ↔ i = text.length := by
  rw [Anchor.holds, Option.isNone_iff_eq_none, List.getElem?_eq_none_iff]
  exact ⟨fun hlast => Nat.le_antisymm hi hlast, fun hlast => Nat.le_of_eq hlast.symm⟩

theorem matches_enclosed_iff {text : List Char} {p : Pattern} {i j : Nat} :
    Matches text (enclosed p) i j ↔ i = 0 ∧ j = text.length ∧ Matches text p 0 text.length := by
  constructor
  · intro h
    cases h with
    | seq _ _ _ middle _ hstart hrest =>
      cases hrest with
      | seq _ _ _ last _ hgroup hend =>
        cases hgroup with
        | group _ _ _ _ hmatch =>
          cases hstart with
          | anchor _ _ hi hholds =>
            cases hend with
            | anchor _ _ hj hholds' =>
              obtain rfl := (textStart_holds_iff hi _).mp hholds
              obtain rfl := (textEnd_holds_iff hj _).mp hholds'
              exact ⟨rfl, rfl, hmatch⟩
  · rintro ⟨rfl, rfl, hmatch⟩
    have hstart : Matches text (.anchor .textStart) 0 0 :=
      .anchor _ _ (Nat.zero_le _) ((textStart_holds_iff (Nat.zero_le _) _).mpr rfl)
    have hend : Matches text (.anchor .textEnd) text.length text.length :=
      .anchor _ _ (Nat.le_refl _) ((textEnd_holds_iff (Nat.le_refl _) _).mpr rfl)
    exact .seq _ _ _ _ _ hstart (.seq _ _ _ _ _ (.group _ _ _ _ hmatch) hend)

theorem isMatch_enclosed_iff (p : Pattern) (text : String) :
    (enclosed p).isMatch text ↔ p.Covers text := by
  rw [isMatch_iff]
  simp only [matches_enclosed_iff]
  constructor
  · rintro ⟨_, _, _, _, _, hmatch⟩
    exact hmatch
  · intro hmatch
    exact ⟨0, Nat.zero_le _, _, rfl, rfl, hmatch⟩

instance (p : Pattern) (text : String) : Decidable (p.Covers text) :=
  decidable_of_iff _ (isMatch_enclosed_iff p text)

/-- What is to come of a pattern and a text: an error where the pattern alone is invalid, else
whether it takes the whole text. -/
def coversWhole (pattern text : String) : Eval Bool :=
  match read? pattern with
  | some p => return p.Covers text
  | none => Eval.fail (.invalidPattern pattern)

/-- Limits are kept between anchors too. -/
structure Nested.HasRoom (p : Nested Pattern) : Prop where
  depth : p.depth + 2 ≤ depthLimit
  forward : p.value.sizes.forward + 2 * stateSize ≤ sizeLimit
  backward : p.value.sizes.backward + 2 * stateSize ≤ sizeLimit

theorem Nested.hasRoom_iff (p : Nested Pattern) :
    p.HasRoom ↔ Nested.isWithinLimits ⟨enclosed p.value, p.depth + 2⟩ := by
  rw [isWithinLimits, Bool.and_eq_true, decide_eq_true_iff, fits_enclosed_iff]
  exact ⟨fun h => ⟨h.depth, h.forward, h.backward⟩, fun h => ⟨h.1, h.2.1, h.2.2⟩⟩

instance (p : Nested Pattern) : Decidable p.HasRoom := decidable_of_iff' _ p.hasRoom_iff

theorem Nested.HasRoom.isWithinLimits {p : Nested Pattern} (h : p.HasRoom) : p.isWithinLimits := by
  have hdepth : p.depth ≤ depthLimit := Nat.le_of_add_right_le h.depth
  have hforward : p.value.sizes.forward ≤ sizeLimit := Nat.le_of_add_right_le h.forward
  have hbackward : p.value.sizes.backward ≤ sizeLimit := Nat.le_of_add_right_le h.backward
  simp [Nested.isWithinLimits, fits, hdepth, hforward, hbackward]

theorem read?_eq_some {text : String} {p : Pattern} (h : read? text = some p) :
    ∃ q, parse? text = some q ∧ q.isWithinLimits ∧ q.value = p := by
  rw [read?_eq] at h
  obtain ⟨q, hq, h⟩ := Option.bind_eq_some_iff.mp h
  refine ⟨q, hq, ?_⟩
  simpa using h

theorem read?_anchored {pattern : String} {p : Nested Pattern} (h : parse? pattern = some p) :
    read? (anchored pattern) =
      if parse? (pattern ++ ")") = none ∧ p.HasRoom then some (enclosed p.value) else none := by
  rw [read?_eq, parse?_anchored h]
  by_cases hclosed : parse? (pattern ++ ")") = none
  · rw [if_pos hclosed, Option.bind_some]
    by_cases hroom : p.HasRoom
    · rw [if_pos ((Nested.hasRoom_iff p).mp hroom), if_pos ⟨hclosed, hroom⟩]
    · rw [if_neg fun hwithin => hroom ((Nested.hasRoom_iff p).mpr hwithin),
        if_neg fun hboth => hroom hboth.2]
  · rw [if_neg hclosed, if_neg fun hboth => hclosed hboth.1]
    rfl

/-- Nothing of a pattern's text reaches over the brackets that are put around it. -/
structure Enclosable (pattern : String) : Prop where
  /-- The text ends outside of a comment, which would take a bracket behind it in. -/
  closed : ∀ p, read? pattern = some p → parse? (pattern ++ ")") = none
  /-- The limits leave room for the anchors and the group. -/
  room : ∀ p, parse? pattern = some p → p.isWithinLimits → p.HasRoom
  /-- No bracket in an invalid text closes the group in such a way that the whole becomes valid. -/
  unopened : read? pattern = none → ∀ front back, pattern = front ++ ")" ++ back →
    parse? front ≠ none → read? (anchored pattern) = none

theorem Enclosable.read?_anchored {pattern : String} (h : Enclosable pattern) :
    read? (anchored pattern) = (read? pattern).map enclosed := by
  cases hread : read? pattern with
  | some p =>
    obtain ⟨q, hparse, hwithin, rfl⟩ := read?_eq_some hread
    rw [Pattern.read?_anchored hparse, if_pos ⟨h.closed _ hread, h.room q hparse hwithin⟩]
    rfl
  | none =>
    cases hparse : parse? pattern with
    | some q =>
      rw [Pattern.read?_anchored hparse, if_neg ?_]
      · rfl
      · rintro ⟨-, hroom⟩
        rw [read?_eq, hparse, Option.bind_some, if_pos hroom.isWithinLimits] at hread
        cases hread
    | none =>
      cases hanchored : read? (anchored pattern) with
      | none => rfl
      | some r =>
        obtain ⟨q, hq, -, -⟩ := read?_eq_some hanchored
        obtain ⟨front, back, heq, hfront⟩ := exists_front_of_parse?_anchored hparse hq
        rw [h.unopened hread front back heq hfront] at hanchored
        cases hanchored

theorem pure_ne_fail (found : Bool) (error : EvalError) :
    (pure found : Eval Bool) ≠ Eval.fail error := by
  intro h
  have hrun := congrFun h (default : Machine)
  cases hrun

/-- Matching a text as a whole gives what the pattern alone says of it, for every text, just where
the pattern does not reach over the group it is put in. -/
theorem matchesWhole_eq_coversWhole_iff (pattern : String) :
    (∀ text, matchesWhole pattern text = coversWhole pattern text) ↔ Enclosable pattern := by
  constructor
  · intro h
    have hempty := h ""
    rw [matchesWhole, fullMatch?, coversWhole] at hempty
    have hreadable : ∀ q, parse? pattern = some q → q.isWithinLimits →
        parse? (pattern ++ ")") = none ∧ q.HasRoom := by
      intro q hparse hwithin
      have hread : read? pattern = some q.value := by
        rw [read?_eq, hparse, Option.bind_some, if_pos hwithin]
      by_contra hnot
      rw [hread, read?_anchored hparse, if_neg hnot] at hempty
      exact pure_ne_fail _ _ hempty.symm
    refine ⟨fun p hread => ?_, fun p hparse hwithin => ?_, fun hread front back _ _ => ?_⟩
    · obtain ⟨q, hparse, hwithin, -⟩ := read?_eq_some hread
      exact (hreadable q hparse hwithin).1
    · exact (hreadable p hparse hwithin).2
    · cases hanchored : read? (anchored pattern) with
      | none => rfl
      | some r =>
        rw [hread, hanchored] at hempty
        exact absurd hempty (pure_ne_fail _ _)
  · intro h text
    rw [matchesWhole, fullMatch?, coversWhole, h.read?_anchored]
    cases read? pattern with
    | none => rfl
    | some p =>
      have hmatch : (enclosed p).isMatch text = decide (p.Covers text) :=
        Bool.eq_iff_iff.mpr ((isMatch_enclosed_iff p text).trans decide_eq_true_iff.symm)
      exact congrArg pure hmatch

/-- A bracket in an invalid text closes the group, and a comment at the end of a valid one hides the
bracket that should. -/
theorem wholes_misread :
    (matchesWhole "a)(?:b" "ab" = pure true ∧
      coversWhole "a)(?:b" "ab" = Eval.fail (.invalidPattern "a)(?:b")) ∧
    matchesWhole "(?x)a#" "a" = Eval.fail (.invalidPattern "(?x)a#") ∧
      coversWhole "(?x)a#" "a" = pure true := by
  refine ⟨⟨?_, ?_⟩, ?_, ?_⟩
  · have hfound : fullMatch? "a)(?:b" "ab" = some true := by decide +kernel
    rw [matchesWhole, hfound]
  · have hinvalid : (read? "a)(?:b").isNone := by decide +kernel
    rw [coversWhole, Option.isNone_iff_eq_none.mp hinvalid]
  · have hinvalid : fullMatch? "(?x)a#" "a" = none := by decide +kernel
    rw [matchesWhole, hinvalid]
  · have hcovers : (read? "(?x)a#").map (fun p => decide (p.Covers "a")) = some true := by
      decide +kernel
    obtain ⟨p, hread, hp⟩ := Option.map_eq_some_iff.mp hcovers
    rw [coversWhole, hread]
    exact congrArg pure hp

end ObjectQuery.Pattern
