import ObjectQuery.Pattern.Reader
import ObjectQuery.Proofs.Pattern.CharClass

/-!
Groups, repetition and sequences beside a closing bracket.
-/

namespace ObjectQuery.Pattern

open Scan

variable {place : Place}

/-! ### What opens a group -/

/-- What a letter says between the question mark and the end of the flags. -/
def flagStep (goOn : List Char → Bool → Flags → Scan Opening) (seen : List Char) (dangling : Bool)
    (flags : Flags) (c : Char) : Scan Opening :=
  match c with
  | ':' => if dangling then failure else return .group false flags
  | ')' => if dangling || seen.isEmpty then failure else return .directive flags
  | '-' => do
    if seen.contains '-' then failure
    goOn ('-' :: seen) true flags
  | c => do
    if seen.contains c then failure
    goOn (c :: seen) false (← flags.set? c (!seen.contains '-'))

theorem flagLetters_succ (fuel : Nat) (seen : List Char) (dangling : Bool) (flags : Flags) :
    flagLetters (fuel + 1) seen dangling flags =
      next >>= fun c => flagStep (flagLetters fuel) seen dangling flags c := by
  rw [flagLetters]
  rfl

theorem flagStep_letter (goOn : List Char → Bool → Flags → Scan Opening) (seen : List Char)
    (dangling : Bool) (flags : Flags) {c : Char} (hcolon : c ≠ ':') (hclose : c ≠ ')')
    (hminus : c ≠ '-') :
    flagStep goOn seen dangling flags c =
      if seen.contains c then failure >>= fun _ : Unit =>
        liftM (flags.set? c (!seen.contains '-')) >>= fun flags => goOn (c :: seen) false flags
      else liftM (flags.set? c (!seen.contains '-')) >>= fun flags =>
        goOn (c :: seen) false flags := by
  rw [flagStep.eq_def]
  split
  · exact absurd rfl hcolon
  · exact absurd rfl hclose
  · exact absurd rfl hminus
  · rfl

theorem shrinks_flagStep {goOn : List Char → Bool → Flags → Scan Opening}
    (h : ∀ seen dangling flags, Shrinks (goOn seen dangling flags)) (seen : List Char)
    (dangling : Bool) (flags : Flags) (c : Char) :
    Shrinks (flagStep goOn seen dangling flags c) := by
  rw [flagStep.eq_def]
  split
  · exact .ite .failure (.pure _)
  · exact .ite .failure (.pure _)
  · exact .ite .failure_bind (h _ _ _)
  · exact .ite .failure_bind (.bind (.lift _) fun _ => h _ _ _)

theorem shrinks_flagLetters (fuel : Nat) (seen : List Char) (dangling : Bool) (flags : Flags) :
    Shrinks (flagLetters fuel seen dangling flags) := by
  induction fuel generalizing seen dangling flags with
  | zero => exact .failure
  | succ fuel ih =>
    rw [flagLetters_succ]
    exact shrinks_next.bind fun c => shrinks_flagStep (fun _ _ _ => ih _ _ _) seen dangling flags c

theorem bracketed_flagLetters {fuel : Nat} {fuel' : List Char → Nat} (seen : List Char)
    (dangling : Bool) (flags : Flags) (hfuel : place.rest.length < fuel)
    (hfuel' : ∀ s, place.rest.length < fuel' s) :
    Bracketed nowhere (flagLetters fuel seen dangling flags)
      (fun s => flagLetters (fuel' s) seen dangling flags) place := by
  induction fuel generalizing place fuel' seen dangling flags with
  | zero => cases hfuel
  | succ fuel ih =>
    obtain ⟨less, rfl⟩ := exists_eq_succ fun s => Nat.zero_lt_of_lt (hfuel' s)
    simp only [flagLetters_succ]
    refine .next_bind (fun c behind hrest => ?_) fun s =>
      shrinks_flagStep (fun _ _ _ => shrinks_flagLetters _ _ _ _) seen dangling flags ')'
    have hgoOn : ∀ seen dangling flags, Bracketed nowhere (flagLetters fuel seen dangling flags)
        (fun s => flagLetters (less s) seen dangling flags) { place with rest := behind } :=
      fun seen dangling flags => by
        rw [hrest, List.length_cons] at hfuel
        refine ih seen dangling flags (Nat.lt_of_succ_lt_succ hfuel) fun s => ?_
        have hmore : place.rest.length < less s + 1 := hfuel' s
        rw [hrest, List.length_cons] at hmore
        exact Nat.lt_of_succ_lt_succ hmore
    by_cases hcolon : c = ':'
    · subst hcolon
      exact .ite (fun _ => .failure) fun _ => .pure _
    by_cases hclose : c = ')'
    · subst hclose
      exact .ite (fun _ => .failure) fun _ => .pure _
    by_cases hminus : c = '-'
    · subst hminus
      exact .ite (fun _ => .failure_bind) fun _ => hgoOn _ _ _
    · simp only [flagStep_letter _ _ _ _ hcolon hclose hminus]
      exact .ite (fun _ => .failure_bind) fun _ => .lift_bind fun flags _ => hgoOn _ _ flags

/-- Takes the name of a group, given what is in front of the angle and from it on. -/
def takeName (name here : List Char) : Scan Unit :=
  match name, here with
  | first :: others, '>' :: behind =>
    if isNameChar true first && others.all (isNameChar false) then do
      let name := String.ofList name
      if (← get).groupNames.contains name then failure
      modify fun place => { place with rest := behind, groupNames := name :: place.groupNames }
    else failure
  | _, _ => failure

theorem groupName_eq :
    groupName = rest >>= fun here =>
      takeName (here.takeWhile (· != '>')) (here.dropWhile (· != '>')) :=
  rfl

theorem suffix_of_takeName {name here : List Char} {after : Place}
    (h : takeName name here place = some ((), after)) : after.rest <:+ here := by
  rw [takeName.eq_def] at h
  split at h
  · split at h
    · obtain ⟨_, middle, hget, h⟩ := bind_eq_some.mp h
      cases hget
      split at h
      · cases h
      · cases h
        exact List.suffix_cons _ _
    · cases h
  · cases h

theorem takeName_angle (name : List Char) (place : Place) :
    (∀ behind rest, takeName name ('>' :: behind) { place with rest } = none) ∨
      ∃ groupNames, ∀ behind rest, takeName name ('>' :: behind) { place with rest } =
        some ((), { place with rest := behind, groupNames }) := by
  cases name with
  | nil => exact .inl fun _ _ => rfl
  | cons first others =>
    by_cases hvalid : isNameChar true first && others.all (isNameChar false)
    · by_cases hgiven : place.groupNames.contains (String.ofList (first :: others))
      · refine .inl fun behind rest => ?_
        rw [takeName, if_pos hvalid]
        exact (bind_of_some (a := { place with rest }) rfl).trans (by rw [if_pos hgiven]; rfl)
      · refine .inr ⟨String.ofList (first :: others) :: place.groupNames, fun behind rest => ?_⟩
        rw [takeName, if_pos hvalid]
        exact (bind_of_some (a := { place with rest }) rfl).trans (by rw [if_neg hgiven]; rfl)
    · refine .inl fun behind rest => ?_
      rw [takeName, if_neg hvalid, failure_apply]

theorem groupName_of_angle {name behind : List Char} (hname : '>' ∉ name)
    (h : place.rest = name ++ '>' :: behind) :
    groupName place = takeName name ('>' :: behind) place := by
  have hall : ∀ c ∈ name, c != '>' := fun c hc => bne_iff_ne.mpr fun heq => hname (heq ▸ hc)
  rw [groupName_eq, bind_of_some rest_apply, h, List.takeWhile_append_of_pos hall,
    List.dropWhile_append_of_pos hall, List.takeWhile_cons_of_neg (by decide),
    List.dropWhile_cons_of_neg (by decide), List.append_nil]

theorem shrinks_groupName : Shrinks groupName := .of_suffix fun place _ after h => by
  rw [groupName_eq, bind_of_some rest_apply] at h
  exact (suffix_of_takeName h).trans (List.dropWhile_suffix _)

theorem keeps_groupName (place : Place) : Keeps groupName place := by
  by_cases hangle : '>' ∈ place.rest
  · obtain ⟨name, behind, hrest, hname⟩ := List.eq_append_cons_of_mem hangle
    have halone := groupName_of_angle hname hrest
    have hbeside : ∀ s, groupName (place.closed s) =
        takeName name ('>' :: (behind ++ ')' :: s)) (place.closed s) := fun s =>
      groupName_of_angle hname (by rw [Place.closed, hrest, List.append_assoc]; rfl)
    rcases takeName_angle name place with hnone | ⟨groupNames, hsome⟩
    · refine .past (halone.trans (hnone _ _)) fun s _ after h => ?_
      have hfails := (hbeside s).symm.trans h
      rw [Place.closed, hnone] at hfails
      cases hfails
    · exact .kept () _ (halone.trans (hsome _ _)) fun s => (hbeside s).trans (hsome _ _)
  · have hall : place.rest.dropWhile (· != '>') = [] := by
      rw [List.dropWhile_eq_nil_iff]
      exact fun c hc => bne_iff_ne.mpr fun heq => hangle (heq ▸ hc)
    refine .past ?_ fun s _ after h => .inl ?_
    · rw [groupName_eq, bind_of_some rest_apply, hall]
      cases place.rest.takeWhile (· != '>') <;> rfl
    · rw [groupName_eq, bind_of_some rest_apply] at h
      have hsuffix := suffix_of_takeName h
      rw [Place.closed, List.dropWhile_append, hall, List.isEmpty_nil, if_pos rfl,
        List.dropWhile_cons_of_pos (by decide)] at hsuffix
      exact hsuffix.trans (List.dropWhile_suffix _)

/-- The group behind a bracket that looks around nowhere. -/
def groupOpening (flags : Flags) : Scan Opening := do
  if ← takeText "?P<" then
    groupName
    return .group true flags
  if ← takeText "?<" then
    groupName
    return .group true flags
  if ← takeText "?" then flagLetters ((← rest).length + 1) [] false flags
  else return .group true flags

/-- The same, where the bracket may turn out to look around, which is refused. -/
def lookingOpening (flags : Flags) : Scan Opening := do
  if (← takeText "?=") || (← takeText "?!") || (← takeText "?<=") || (← takeText "?<!") then failure
  groupOpening flags

theorem opening_eq : opening = flags >>= fun flags => pass >>= fun _ => lookingOpening flags := rfl

theorem shrinks_groupOpening (flags : Flags) : Shrinks (groupOpening flags) := by
  have hnamed : Shrinks (groupName >>= fun _ => pure (Opening.group true flags)) :=
    shrinks_groupName.bind fun _ => .pure _
  refine (shrinks_takeText _).bind fun _ => .ite hnamed ?_
  refine (shrinks_takeText _).bind fun _ => .ite hnamed ?_
  exact (shrinks_takeText _).bind fun _ => .ite
    (.bind .rest fun _ => shrinks_flagLetters _ _ _ _) (.pure _)

theorem keeps_groupOpening (flags : Flags) (place : Place) : Keeps (groupOpening flags) place := by
  have hnamed : ∀ after, Keeps (groupName >>= fun _ => pure (Opening.group true flags)) after :=
    fun after => (keeps_groupName after).andThen (fun _ _ _ => .pure _) fun _ => .pure _
  refine .takeText_bind (by decide) fun _ _ => .ite (fun _ => hnamed _) fun _ => ?_
  refine .takeText_bind (by decide) fun _ _ => .ite (fun _ => hnamed _) fun _ => ?_
  refine .takeText_bind (by decide) fun _ after => .ite (fun _ => .rest_bind ?_) fun _ => .pure _
  refine bracketed_flagLetters _ _ _ (Nat.lt_succ_self _) fun s => ?_
  rw [List.length_append]
  omega

theorem shrinks_lookingOpening (flags : Flags) : Shrinks (lookingOpening flags) :=
  (shrinks_takeText _).bind fun _ => (shrinks_takeText _).bind fun _ =>
    (shrinks_takeText _).bind fun _ => (shrinks_takeText _).bind fun _ =>
      .ite .failure_bind (shrinks_groupOpening flags)

theorem keeps_lookingOpening (flags : Flags) (place : Place) :
    Keeps (lookingOpening flags) place := by
  refine .takeText_bind (by decide) fun _ _ => .takeText_bind (by decide) fun _ _ =>
    .takeText_bind (by decide) fun _ _ => .takeText_bind (by decide) fun _ last => ?_
  exact .ite (fun _ => .failure_bind) fun _ => keeps_groupOpening flags last

theorem drops_opening (hne : place.rest ≠ []) : Drops 1 opening place := by
  intro e last h
  rw [opening_eq, bind_of_some flags_apply] at h
  exact (drops_pass hne).bind_left (fun _ => shrinks_lookingOpening place.flags) e last h

theorem shrinks_opening : Shrinks opening :=
  .bind .flags fun flags => shrinks_pass.bind fun _ => shrinks_lookingOpening flags

theorem keeps_opening (hne : place.rest ≠ []) : Keeps opening place := by
  rw [opening_eq]
  exact OfFlags.flags.bracketed_bind fun flags => (keeps_pass hne).andThen
    (fun _ after _ => keeps_lookingOpening flags after) fun _ => shrinks_lookingOpening flags

/-! ### Repetition -/

theorem shrinks_decimal : Shrinks decimal :=
  .dropWhile_bind <| .bind .rest fun _ => (shrinks_takeWhile _ _).bind fun _ =>
    .dropWhile_bind <| .ite .failure_bind (.ite (.pure _) .failure)

theorem keeps_decimal (place : Place) : Keeps decimal place := by
  refine .dropWhile_bind isBlank_bracket (.rest_bind ?_)
  refine (bracketed_takeWhile (by decide) (Nat.le_refl _) fun s => ?_).bind
    (fun digits after _ => ?_) (fun _ _ h => h.elim) (fun _ _ => ?_)
    fun _ _ _ _ _ => rfl
  · rw [List.length_append, List.length_cons]
    omega
  · exact .dropWhile_bind isBlank_bracket <| .ite (fun _ => .failure_bind) fun _ =>
      .ite (fun _ => .pure _) fun _ => .failure
  · exact .dropWhile_bind <| .ite .failure_bind (.ite (.pure _) .failure)

theorem decimal_bracket {s : List Char} (h : place.rest = ')' :: s) : decimal place = none := by
  have hblank : place.rest.dropWhile isBlank = ')' :: s := by
    rw [h, List.dropWhile_cons_of_neg (by simp [isBlank_bracket])]
  rw [decimal, bind_of_some rest_apply, bind_of_some (setRest_apply _), bind_of_some rest_apply,
    bind_of_some (takeWhile_of_unwanted hblank (by decide) _)]
  rfl

theorem shrinks_laziness : Shrinks laziness := .bind .peek? fun _ => .ite .skip (.pure _)

theorem keeps_laziness (place : Place) : Keeps laziness place := by
  refine .peek?_bind (fun c behind hrest => .ite (fun _ => ?_) fun _ => .pure _) fun _ => ?_
  · refine .kept () { place with rest := behind } ?_ fun s => ?_
    · rw [skip_apply, hrest]
      rfl
    · rw [skip_apply, Place.closed, hrest]
      rfl
  · exact .ite (fun h => absurd h (by decide)) fun _ => .pure _

/-- The upper bound of a repetition, if there is one, from the sign behind the comma on. -/
def boundBehindComma (least : Nat) (c : Char) : Scan (Nat × Option Nat) :=
  if c = '\x7d' then return (least, none) else return (least, some (← decimal))

/-- The bounds of a repetition from the sign behind the lower one on. -/
def boundsFrom (least : Nat) (c : Char) : Scan (Nat × Option Nat) :=
  if c = ',' then advance >>= boundBehindComma least else return (least, some least)

/-- The end of a repetition. -/
def closeCounts (bounds : Nat × Option Nat) : Scan (Nat × Option Nat) := do
  if (← peek) != '\x7d' then failure
  pass
  laziness
  match bounds with
  | (least, some most) => if most < least then failure else return bounds
  | _ => return bounds

theorem counts_eq :
    counts = advance >>= fun _ => decimal >>= fun least => peek >>= fun c =>
      boundsFrom least c >>= closeCounts := by
  rw [counts]
  refine congrArg _ (funext fun _ =>
    congrArg _ (funext fun least => congrArg _ (funext fun c => ?_)))
  by_cases hc : c = ','
  · subst hc
    rw [boundsFrom, if_pos rfl, bind_assoc]
    refine congrArg (advance >>= ·) (funext fun d => ?_)
    by_cases hd : d = '\x7d'
    · subst hd
      rfl
    · rw [boundBehindComma, if_neg hd, bind_assoc]
      split
      · exact absurd rfl hd
      · rfl
  · rw [boundsFrom, if_neg hc]
    split
    · exact absurd rfl hc
    · rfl

theorem shrinks_boundBehindComma (least : Nat) (c : Char) : Shrinks (boundBehindComma least c) :=
  .ite (.pure _) (shrinks_decimal.bind fun _ => .pure _)

theorem shrinks_boundsFrom (least : Nat) (c : Char) : Shrinks (boundsFrom least c) :=
  .ite (shrinks_advance.bind (shrinks_boundBehindComma least)) (.pure _)

theorem keeps_boundsFrom (least : Nat) {c : Char} {behind : List Char}
    (hrest : place.rest = c :: behind) :
    Keeps (boundsFrom least c) place := by
  refine .ite (fun _ => ?_) fun _ => .pure _
  refine .advance_bind (by simp [hrest]) (fun d after _ _ _ => ?_)
    (fun stop hstop s bounds last h => ?_)
    fun d _ => shrinks_boundBehindComma least d
  · exact .ite (fun _ => .pure _) fun _ =>
      (keeps_decimal after).andThen (fun _ _ _ => .pure _) fun _ => .pure _
  · rw [boundBehindComma, if_neg (by decide),
      bind_of_none (decimal_bracket (Place.rest_closed_of_nil hstop s))] at h
    cases h

theorem ofFlags_checkBounds (bounds : Nat × Option Nat) :
    OfFlags (match bounds with
      | (least, some most) => if most < least then failure else pure bounds
      | _ => pure bounds : Scan (Nat × Option Nat)) := by
  split
  · exact .ite .failure (.pure _)
  · exact .pure _

theorem shrinks_closeCounts (bounds : Nat × Option Nat) : Shrinks (closeCounts bounds) :=
  .bind .peek fun _ => .ite .failure_bind <| shrinks_pass.bind fun _ =>
    shrinks_laziness.bind fun _ =>
    (ofFlags_checkBounds bounds).shrinks

theorem keeps_closeCounts (bounds : Nat × Option Nat) (place : Place) :
    Keeps (closeCounts bounds) place := by
  refine .peek_bind (fun c behind hrest => .ite (fun _ => .failure_bind) fun _ => ?_)
    fun hnil s bounds last h => ?_
  · refine (keeps_pass (by simp [hrest])).andThen (fun _ after _ => ?_) fun _ =>
      shrinks_laziness.bind fun _ => (ofFlags_checkBounds bounds).shrinks
    exact (keeps_laziness after).andThen (fun _ last _ => (ofFlags_checkBounds bounds).stays last)
      fun _ => (ofFlags_checkBounds bounds).shrinks
  · rw [if_pos (by decide)] at h
    cases h

theorem shrinks_counts : Shrinks counts := by
  rw [counts_eq]
  exact shrinks_advance.bind fun _ => shrinks_decimal.bind fun least => .bind .peek fun c =>
    (shrinks_boundsFrom least c).bind shrinks_closeCounts

theorem drops_counts (hne : place.rest ≠ []) : Drops 1 counts place := by
  rw [counts_eq]
  exact (drops_advance hne).bind_left fun _ =>
    shrinks_decimal.bind fun least => .bind .peek fun c =>
    (shrinks_boundsFrom least c).bind shrinks_closeCounts

theorem keeps_counts (hne : place.rest ≠ []) : Keeps counts place := by
  have hbounds : ∀ least c, Shrinks (boundsFrom least c >>= closeCounts) := fun least c =>
    (shrinks_boundsFrom least c).bind shrinks_closeCounts
  rw [counts_eq]
  refine .advance_bind hne (fun c after _ _ _ => ?_) (fun stop hstop s bounds last h => ?_)
    fun _ _ => shrinks_decimal.bind fun least => .bind .peek (hbounds least)
  · refine (keeps_decimal after).andThen (fun least middle _ => ?_) fun least =>
      .bind .peek (hbounds least)
    refine .peek_bind (fun d behind hrest => ?_) fun hnil s bounds last h => ?_
    · exact (keeps_boundsFrom least hrest).andThen
        (fun bounds last _ => keeps_closeCounts bounds last)
        shrinks_closeCounts
    · -- The bracket ends no repetition.
      rw [boundsFrom, if_neg (by decide), pure_bind, closeCounts,
        bind_of_some (peek_of_cons (Place.rest_closed_of_nil hnil s)), if_pos (by decide)] at h
      cases h
  · rw [bind_of_none (decimal_bracket (Place.rest_closed_of_nil hstop s))] at h
    cases h

/-! ### Single characters -/

theorem ofFlags_lineAnchor (isStart : Bool) : OfFlags (lineAnchor isStart) := by
  refine .bind .flags fun _ => ?_
  split <;> exact .pure _

theorem ofFlags_one {m : Scan CharSet} (h : OfFlags m) :
    OfFlags (m >>= fun set => pure (Pattern.one set)) :=
  h.bind fun _ => .pure _

theorem ofFlags_escaped (e : Escape) : OfFlags (match e with
    | .char c => literalSet c >>= fun set => pure (Pattern.one set)
    | .set s => pure (.one s)
    | .anchor a => pure (.anchor a) : Scan Pattern) := by
  split
  · exact ofFlags_one (ofFlags_literalSet _)
  · exact .pure _
  · exact .pure _

theorem drops_primitive (place : Place) : Drops 1 primitive place := by
  refine .peek_bind fun c behind hrest => ?_
  have hne : place.rest ≠ [] := by simp [hrest]
  split
  · exact (drops_escape hne).bind_left fun e => (ofFlags_escaped e).shrinks
  · exact (drops_skip hne).bind_left fun _ => (ofFlags_one ofFlags_dotSet).shrinks
  · exact (drops_skip hne).bind_left fun _ => ((ofFlags_lineAnchor _).bind fun _ => .pure _).shrinks
  · exact (drops_skip hne).bind_left fun _ => ((ofFlags_lineAnchor _).bind fun _ => .pure _).shrinks
  · exact (drops_skip hne).bind_left fun _ => (ofFlags_one (ofFlags_literalSet _)).shrinks

theorem shrinks_primitive : Shrinks primitive := fun place =>
  (drops_primitive place).weaken (Nat.zero_le 1)

theorem stays_primitive (hne : place.rest ≠ []) : Stays (fun _ => AtOpenBrace) primitive place := by
  refine .peek_bind (fun c behind hrest => ?_) fun hnil => absurd hnil hne
  have hskip : ∀ {m : Scan Pattern}, OfFlags m →
      Stays (fun _ => AtOpenBrace) (skip >>= fun _ => m) place := fun h =>
    .skip_bind hrest (h.stays _)
  change Stays _ _ _
  split
  · refine (stays_escape hrest).bind (fun e last _ => (ofFlags_escaped e).stays last)
      (fun e stop hstop s p last h => ?_) (fun e _ => (ofFlags_escaped e).shrinks)
      fun _ _ _ _ _ => rfl
    obtain ⟨⟨a, rfl⟩, hbrace⟩ := hstop
    cases h
    exact .inr ⟨stop, hbrace, rfl⟩
  · exact hskip (ofFlags_one ofFlags_dotSet)
  · exact hskip ((ofFlags_lineAnchor _).bind fun _ => .pure _)
  · exact hskip ((ofFlags_lineAnchor _).bind fun _ => .pure _)
  · exact hskip (ofFlags_one (ofFlags_literalSet _))

/-! ### Sequences -/

/-- What a sequence does with what is next. -/
inductive Turn where
  | ends
  | opens
  | isClass
  | repeats (least : Nat) (most : Option Nat)
  | counted
  | single

def Turn.of : Option Char → Turn
  | none | some '|' | some ')' => ends
  | some '(' => opens
  | some '[' => isClass
  | some '*' => repeats 0 none
  | some '+' => repeats 1 none
  | some '?' => repeats 0 (some 1)
  | some '\x7b' => counted
  | some _ => single

/-- Goes on with the last part repeated. -/
def sequenceTimes (fuel : Nat) (parts : List Part) (least : Nat) (most : Option Nat) :
    Scan (Nested Pattern) :=
  match parts with
  | some p :: before => sequence fuel (some ⟨.times p.value least most, p.depth + 1⟩ :: before)
  | _ => failure

/-- Goes on behind a bracket that was opened. -/
def sequenceGroup (fuel : Nat) (parts : List Part) (outer : Flags) : Opening → Scan (Nested Pattern)
  | .directive flags => do
    setFlags flags
    sequence fuel (none :: parts)
  | .group captures flags => do
    setFlags flags
    let p := choice (← alternatives fuel)
    expect ')'
    setFlags outer
    sequence fuel (some ⟨.group captures p.value, p.depth + 1⟩ :: parts)

def sequenceTurn (fuel : Nat) (parts : List Part) : Turn → Scan (Nested Pattern)
  | .ends => return joined parts
  | .opens => do
    let outer ← flags
    sequenceGroup fuel parts outer (← opening)
  | .isClass => do
    let set ← bracket fuel
    sequence fuel (some ⟨.one set.value, set.depth⟩ :: parts)
  | .repeats least most => do
    skip
    laziness
    sequenceTimes fuel parts least most
  | .counted => do
    let bounds ← counts
    sequenceTimes fuel parts bounds.1 bounds.2
  | .single => do sequence fuel (some (.flat (← primitive)) :: parts)

theorem sequence_succ (fuel : Nat) (parts : List Part) :
    sequence (fuel + 1) parts =
      skipBlank >>= fun _ => peek? >>= fun c => sequenceTurn fuel parts (.of c) := by
  rw [sequence]
  refine congrArg _ (funext fun _ => congrArg (peek? >>= ·) (funext fun c => ?_))
  split
  case h_10 other _ _ _ _ _ _ _ _ =>
    have hsingle : Turn.of (some other) = .single := by simp_all [Turn.of.eq_def]
    rw [hsingle]
    rfl
  all_goals rfl

theorem alternatives_succ (fuel : Nat) :
    alternatives (fuel + 1) = sequence fuel [] >>= fun first => peek? >>= fun c =>
      if c == some '|' then
        skip >>= fun _ => alternatives fuel >>= fun others => pure (first :: others)
      else pure [first] := by
  rw [alternatives]

theorem shrinks_sequenceTimes {fuel : Nat} (h : ∀ parts, Shrinks (sequence fuel parts))
    (parts : List Part) (least : Nat) (most : Option Nat) :
    Shrinks (sequenceTimes fuel parts least most) := by
  rw [sequenceTimes.eq_def]
  split
  · exact h _
  · exact .failure

theorem shrinks_sequenceGroup {fuel : Nat} (h : ∀ parts, Shrinks (sequence fuel parts))
    (halternatives : Shrinks (alternatives fuel)) (parts : List Part) (outer : Flags)
    (e : Opening) :
    Shrinks (sequenceGroup fuel parts outer e) := by
  cases e with
  | directive flags => exact .bind (.setFlags _) fun _ => h _
  | group captures flags =>
    exact .bind (.setFlags _) fun _ => halternatives.bind fun _ => (shrinks_expect _).bind fun _ =>
      .bind (.setFlags _) fun _ => h _

theorem shrinks_sequenceTurn {fuel : Nat} (h : ∀ parts, Shrinks (sequence fuel parts))
    (halternatives : Shrinks (alternatives fuel)) (parts : List Part) (turn : Turn) :
    Shrinks (sequenceTurn fuel parts turn) := by
  cases turn with
  | ends => exact .pure _
  | opens =>
    exact .bind .flags fun _ => shrinks_opening.bind fun _ =>
      shrinks_sequenceGroup h halternatives _ _ _
  | isClass => exact (shrinks_bracket _).bind fun _ => h _
  | repeats => exact .bind .skip fun _ => shrinks_laziness.bind fun _ =>
    shrinks_sequenceTimes h _ _ _
  | counted => exact shrinks_counts.bind fun _ => shrinks_sequenceTimes h _ _ _
  | single => exact shrinks_primitive.bind fun _ => h _

theorem shrinks_sequences (fuel : Nat) :
    (∀ parts, Shrinks (sequence fuel parts)) ∧ Shrinks (alternatives fuel) := by
  induction fuel with
  | zero =>
    refine ⟨fun parts => ?_, ?_⟩
    · rw [sequence]
      exact .failure
    · rw [alternatives]
      exact .failure
  | succ fuel ih =>
    obtain ⟨hsequence, halternatives⟩ := ih
    refine ⟨fun parts => ?_, ?_⟩
    · rw [sequence_succ]
      exact shrinks_skipBlank.bind fun _ => .bind .peek? fun _ =>
        shrinks_sequenceTurn hsequence halternatives _ _
    · rw [alternatives_succ]
      exact (hsequence _).bind fun _ => .bind .peek? fun _ =>
        .ite (.bind .skip fun _ => halternatives.bind fun _ => .pure _) (.pure _)

theorem shrinks_sequence (fuel : Nat) (parts : List Part) : Shrinks (sequence fuel parts) :=
  (shrinks_sequences fuel).1 parts

theorem shrinks_alternatives (fuel : Nat) : Shrinks (alternatives fuel) :=
  (shrinks_sequences fuel).2

theorem sequence_of_nil (fuel : Nat) (parts : List Part) (h : place.rest = []) :
    sequence (fuel + 1) parts place = some (joined parts, place) := by
  rw [sequence_succ, bind_of_some (skipBlank_of_nil h), bind_of_some peek?_apply, h]
  rfl

theorem sequence_atOpenBrace {stop : Place} (h : AtOpenBrace stop) (fuel : Nat) (parts : List Part)
    (s : List Char) (p : Nested Pattern) (after : Place)
    (hsome : sequence fuel parts (stop.closed s) = some (p, after)) : after.rest <:+ s := by
  obtain ⟨hhead, hadvance⟩ := h
  obtain ⟨behind, hrest⟩ := List.head?_eq_some_iff.mp hhead
  have hbeside : (stop.closed s).rest = '\x7b' :: (behind ++ ')' :: s) := by
    rw [Place.closed, hrest]
    rfl
  have hcounts : counts stop = none := by rw [counts_eq, bind_of_none hadvance]
  cases fuel with
  | zero =>
    rw [sequence] at hsome
    cases hsome
  | succ fuel =>
    rw [sequence_succ, bind_of_some (skipBlank_of_mark (by decide) (by decide +kernel) hbeside),
      bind_of_some peek?_apply, hbeside] at hsome
    obtain ⟨bounds, middle, hmiddle, hsome⟩ := bind_eq_some.mp hsome
    have hpast := (keeps_counts (by simp [hrest])).past_of_none hcounts s bounds middle hmiddle
    have hshrinks := shrinks_sequenceTimes (shrinks_sequence fuel) parts bounds.1 bounds.2 middle
    rcases hpast with hshort | ⟨_, hnowhere, _⟩
    · exact (hshrinks.suffix hsome).trans hshort
    · exact hnowhere.elim

/-- A sequence is read alike beside the bracket with so much fuel. -/
def ReadsSequence (fuel : Nat) : Prop :=
  ∀ (place : Place) (fuel' : List Char → Nat) (parts : List Part),
    2 * place.rest.length + 1 ≤ fuel → (∀ s, 2 * place.rest.length + 1 ≤ fuel' s) →
      Bracketed nowhere (sequence fuel parts) (fun s => sequence (fuel' s) parts) place

/-- The same of alternatives. -/
def ReadsAlternatives (fuel : Nat) : Prop :=
  ∀ (place : Place) (fuel' : List Char → Nat),
    2 * place.rest.length + 2 ≤ fuel → (∀ s, 2 * place.rest.length + 2 ≤ fuel' s) →
      Bracketed nowhere (alternatives fuel) (fun s => alternatives (fuel' s)) place

theorem bracketed_sequenceTimes {fuel : Nat} {fuel' : List Char → Nat} (parts : List Part)
    (least : Nat) (most : Option Nat)
    (h : ∀ parts, Bracketed nowhere (sequence fuel parts)
      (fun s => sequence (fuel' s) parts) place) :
    Bracketed nowhere (sequenceTimes fuel parts least most)
      (fun s => sequenceTimes (fuel' s) parts least most) place := by
  match parts with
  | [] => exact .failure
  | none :: _ => exact .failure
  | some _ :: _ => exact h _

theorem group_of_nil {m : Scan (List (Nested Pattern))} (hm : Shrinks m)
    {k : List (Nested Pattern) → Unit → Scan (Nested Pattern)} (h : place.rest = []) :
    (m >>= fun found => expect ')' >>= k found) place = none := by
  cases hgroup : (m >>= fun found => expect ')' >>= k found) place with
  | none => rfl
  | some result =>
    obtain ⟨last, after⟩ := result
    obtain ⟨found, middle, hfound, hrest⟩ := bind_eq_some.mp hgroup
    obtain ⟨_, _, hexpect, -⟩ := bind_eq_some.mp hrest
    have hnil : middle.rest = [] := List.suffix_nil.mp (h ▸ (hm place).suffix hfound)
    rw [expect, bind_of_none (next_of_nil hnil)] at hexpect
    cases hexpect

/-- Where nothing is left the amount of fuel makes no difference. -/
theorem sequence_of_fuel {fuel fuel' : Nat} (hfuel : 0 < fuel) (hfuel' : 0 < fuel')
    (parts : List Part) (h : place.rest = []) :
    sequence fuel' parts place = sequence fuel parts place := by
  obtain ⟨less, rfl⟩ := Nat.exists_eq_add_of_lt hfuel
  obtain ⟨less', rfl⟩ := Nat.exists_eq_add_of_lt hfuel'
  rw [sequence_of_nil _ _ h, sequence_of_nil _ _ h]

theorem sequenceTimes_of_fuel {fuel fuel' : Nat} (hfuel : 0 < fuel) (hfuel' : 0 < fuel')
    (parts : List Part) (least : Nat) (most : Option Nat) (h : place.rest = []) :
    sequenceTimes fuel' parts least most place = sequenceTimes fuel parts least most place := by
  rw [sequenceTimes.eq_def, sequenceTimes.eq_def]
  split
  · exact sequence_of_fuel hfuel hfuel' _ h
  · rfl

theorem sequenceGroup_of_fuel {fuel fuel' : Nat} (hfuel : 0 < fuel) (hfuel' : 0 < fuel')
    (parts : List Part) (outer : Flags) (e : Opening) (h : place.rest = []) :
    sequenceGroup fuel' parts outer e place = sequenceGroup fuel parts outer e place := by
  cases e with
  | directive flags =>
    rw [sequenceGroup, sequenceGroup, bind_of_some (setFlags_apply flags),
      bind_of_some (setFlags_apply flags)]
    exact sequence_of_fuel hfuel hfuel' _ h
  | group captures flags =>
    rw [sequenceGroup, sequenceGroup, bind_of_some (setFlags_apply flags),
      bind_of_some (setFlags_apply flags)]
    have hnil : ({ place with flags } : Place).rest = [] := h
    exact (group_of_nil (shrinks_alternatives _) hnil).trans
      (group_of_nil (shrinks_alternatives _) hnil).symm

theorem bracketed_sequenceGroup {fuel : Nat} (hsequence : ReadsSequence fuel)
    (halternatives : ReadsAlternatives fuel) {fuel' : List Char → Nat} (parts : List Part)
    (outer : Flags) (e : Opening) (hfuel : 2 * place.rest.length + 2 ≤ fuel)
    (hfuel' : ∀ s, 2 * place.rest.length + 2 ≤ fuel' s) :
    Bracketed nowhere (sequenceGroup fuel parts outer e)
      (fun s => sequenceGroup (fuel' s) parts outer e) place := by
  cases e with
  | directive flags =>
    refine .bind_kept (n := fun _ => setFlags flags) rfl (fun _ => rfl) ?_
    exact hsequence { place with flags } fuel' _ (Nat.le_of_succ_le hfuel) fun s =>
      Nat.le_of_succ_le (hfuel' s)
  | group captures flags =>
    refine .bind_kept (n := fun _ => setFlags flags) rfl (fun _ => rfl) ?_
    refine (halternatives { place with flags } fuel' hfuel hfuel').bind
      (fun found middle hfound => ?_)
      (fun _ _ h => h.elim) (fun _ _ => ?_) fun found s middle _ hnil => ?_
    · have hmiddle : middle.rest.length ≤ place.rest.length :=
        (shrinks_alternatives fuel { place with flags }).length_le hfound
      refine (keeps_expect ')' middle).bind (fun _ last hexpect => ?_) (fun _ _ => ?_)
        fun _ s last _ hnil => ?_
      · have hlast := (shrinks_expect ')' middle).length_le hexpect
        refine .bind_kept (n := fun _ => setFlags outer) rfl (fun _ => rfl) ?_
        exact hsequence { last with flags := outer } fuel' _
          (show 2 * last.rest.length + 1 ≤ fuel by omega)
          fun s => show 2 * last.rest.length + 1 ≤ fuel' s by
            have hmore := hfuel' s
            omega
      · exact .bind (.setFlags _) fun _ => shrinks_sequence _ _
      · exact sequence_of_fuel (Nat.zero_lt_of_lt hfuel) (Nat.zero_lt_of_lt (hfuel' s)) _ hnil
    · exact (shrinks_expect _).bind fun _ => .bind (.setFlags _) fun _ => shrinks_sequence _ _
    · rw [expect, bind_of_none (by rw [bind_of_none (next_of_nil hnil)]),
        bind_of_none (by rw [bind_of_none (next_of_nil hnil)])]

theorem bracketed_sequenceTurn {fuel : Nat} (hsequence : ReadsSequence fuel)
    (halternatives : ReadsAlternatives fuel) {fuel' : List Char → Nat} (parts : List Part)
    (hne : place.rest ≠ []) (hfuel : 2 * place.rest.length ≤ fuel)
    (hfuel' : ∀ s, 2 * place.rest.length ≤ fuel' s) (turn : Turn) :
    Bracketed nowhere (sequenceTurn fuel parts turn) (fun s => sequenceTurn (fuel' s) parts turn)
      place := by
  have hpos := List.length_pos_iff.mpr hne
  have hfuelled : 0 < fuel := by omega
  have hfuelled' : ∀ s, 0 < fuel' s := fun s => by
    have hmore := hfuel' s
    omega
  -- Whatever follows on a part of the sequence has the fuel for what is left.
  have hgoOn : ∀ (after : Place), after.rest.length < place.rest.length → ∀ parts,
      Bracketed nowhere (sequence fuel parts) (fun s => sequence (fuel' s) parts) after :=
    fun after hless parts => hsequence after fuel' parts (by omega) fun s => by
      have hmore := hfuel' s
      omega
  obtain ⟨c, behind, hrest⟩ := List.exists_cons_of_ne_nil hne
  cases turn with
  | ends => exact .pure _
  | opens =>
    refine OfFlags.flags.bracketed_bind fun outer => ?_
    refine (keeps_opening hne).bind (fun e after hopening => ?_)
      (fun e s => ?_) fun e s after _ hnil => ?_
    · have hdrops := (drops_opening hne).length_le hopening
      exact bracketed_sequenceGroup hsequence halternatives parts outer e (by omega) fun s => by
        have hmore := hfuel' s
        omega
    · exact shrinks_sequenceGroup (shrinks_sequence _) (shrinks_alternatives _) _ _ _
    · exact sequenceGroup_of_fuel hfuelled (hfuelled' s) parts outer e hnil
  | isClass =>
    refine (bracketed_bracket hne hfuel hfuel').bind (fun set after hset => ?_)
      (fun _ _ h => h.elim) (fun _ _ => shrinks_sequence _ _)
      fun set s after _ hnil => sequence_of_fuel hfuelled (hfuelled' s) _ hnil
    have hdrops := (drops_bracket fuel place).length_le hset
    exact hgoOn after (by omega) _
  | repeats least most =>
    refine .skip_bind hrest ?_
    refine (keeps_laziness _).bind (fun _ after hlazy => ?_)
      (fun _ _ => shrinks_sequenceTimes (shrinks_sequence _) _ _ _) fun _ s after _ hnil =>
        sequenceTimes_of_fuel hfuelled (hfuelled' s) _ _ _ hnil
    have hshrinks : after.rest.length ≤ behind.length := (shrinks_laziness _).length_le hlazy
    have hlength : place.rest.length = behind.length + 1 := by rw [hrest, List.length_cons]
    exact bracketed_sequenceTimes parts least most (hgoOn after (by omega))
  | counted =>
    refine (keeps_counts hne).bind (fun bounds after hbounds => ?_)
      (fun _ _ => shrinks_sequenceTimes (shrinks_sequence _) _ _ _) fun bounds s after _ hnil =>
        sequenceTimes_of_fuel hfuelled (hfuelled' s) _ _ _ hnil
    have hdrops := (drops_counts hne).length_le hbounds
    exact bracketed_sequenceTimes parts _ _ (hgoOn after (by omega))
  | single =>
    refine (stays_primitive hne).bind (fun p after hp => ?_) (fun p stop hstop s q after hq => ?_)
      (fun _ _ => shrinks_sequence _ _) fun p s after _ hnil =>
        sequence_of_fuel hfuelled (hfuelled' s) _ hnil
    · have hdrops := (drops_primitive place).length_le hp
      exact hgoOn after (by omega) _
    · exact .inl (sequence_atOpenBrace hstop _ _ s q after hq)

theorem ReadsSequence.succ {fuel : Nat} (hsequence : ReadsSequence fuel)
    (halternatives : ReadsAlternatives fuel) : ReadsSequence (fuel + 1) := by
  intro place fuel' parts hfuel hfuel'
  obtain ⟨less, rfl⟩ := exists_eq_succ fun s => Nat.lt_of_lt_of_le (Nat.succ_pos _) (hfuel' s)
  have hless : ∀ s, 2 * place.rest.length + 1 ≤ less s + 1 := hfuel'
  simp only [sequence_succ]
  refine (keeps_skipBlank place).bind (fun _ middle hmiddle => ?_) (fun _ s => ?_)
    fun _ s middle _ hnil => ?_
  · have hshrinks := (shrinks_skipBlank place).length_le hmiddle
    refine .peek?_bind (fun c behind hrest => ?_) fun _ => .pure _
    exact bracketed_sequenceTurn hsequence halternatives parts (by simp [hrest]) (by omega)
      (fun s => by have hmore := hless s; omega) _
  · exact .bind .peek? fun _ =>
      shrinks_sequenceTurn (shrinks_sequence _) (shrinks_alternatives _) _ _
  · rw [bind_of_some peek?_apply, bind_of_some peek?_apply, hnil]
    rfl

theorem ReadsSequence.readsAlternatives {fuel : Nat} (hsequence : ReadsSequence fuel)
    (halternatives : ReadsAlternatives fuel) : ReadsAlternatives (fuel + 1) := by
  intro place fuel' hfuel hfuel'
  obtain ⟨less, rfl⟩ := exists_eq_succ fun s => Nat.lt_of_lt_of_le (Nat.succ_pos _) (hfuel' s)
  have hless : ∀ s, 2 * place.rest.length + 2 ≤ less s + 1 := hfuel'
  simp only [alternatives_succ]
  refine (hsequence place less [] (by omega) fun s => by have hmore := hless s; omega).bind
    (fun first middle hfirst => ?_) (fun _ _ h => h.elim)
      (fun _ s => ?_) fun first s middle _ hnil => ?_
  · have hshrinks := (shrinks_sequence fuel [] place).length_le hfirst
    refine .peek?_bind (fun c behind hrest => .ite (fun _ => .skip_bind hrest ?_) fun _ => .pure _)
      fun _ => .pure _
    rw [hrest, List.length_cons] at hshrinks
    have hothers := halternatives { middle with rest := behind } less
      (show 2 * behind.length + 2 ≤ fuel by omega) fun s => show 2 * behind.length + 2 ≤ less s by
        have hmore := hless s
        omega
    exact hothers.bind (fun _ _ _ => .pure _) (fun _ _ h => h.elim) (fun _ _ => .pure _)
      fun _ _ _ _ _ => rfl
  · exact .bind .peek? fun _ =>
      .ite (.bind .skip fun _ => (shrinks_alternatives _).bind fun _ => .pure _) (.pure _)
  · rw [bind_of_some peek?_apply, bind_of_some peek?_apply, hnil]
    rfl

theorem readsSequence_and_readsAlternatives (fuel : Nat) :
    ReadsSequence fuel ∧ ReadsAlternatives fuel := by
  induction fuel with
  | zero =>
    refine ⟨fun place fuel' parts hfuel _ => absurd hfuel (by omega), ?_⟩
    exact fun place fuel' hfuel _ => absurd hfuel (by omega)
  | succ fuel ih => exact ⟨ih.1.succ ih.2, ih.1.readsAlternatives ih.2⟩

/-- Alternatives are read alike beside the bracket, with fuel for twice what is left. -/
theorem bracketed_alternatives {fuel : Nat} {fuel' : List Char → Nat}
    (hfuel : 2 * place.rest.length + 2 ≤ fuel) (hfuel' : ∀ s, 2 * place.rest.length + 2 ≤ fuel' s) :
    Bracketed nowhere (alternatives fuel) (fun s => alternatives (fuel' s)) place :=
  (readsSequence_and_readsAlternatives fuel).2 place fuel' hfuel hfuel'

end ObjectQuery.Pattern
