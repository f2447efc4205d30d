import ObjectQuery.Pattern.CharClass
import ObjectQuery.Proofs.Pattern.Scan

/-!
Escapes and classes of characters beside a closing bracket.
-/

namespace ObjectQuery.Pattern

open Scan

variable {place : Place}

/-! ### Sets -/

theorem ofFlags_widen (set : CharSet) : OfFlags (widen set) := .bind .flags fun _ => .pure _

theorem ofFlags_literalSet (c : Char) : OfFlags (literalSet c) := ofFlags_widen _

theorem ofFlags_complementSet (set : CharSet) : OfFlags (complementSet set) :=
  .bind .flags fun _ => .ite (.pure _) .failure

theorem ofFlags_foldAndNegate (negated : Bool) (set : CharSet) :
    OfFlags (foldAndNegate negated set) :=
  .bind (ofFlags_widen set) fun _ => .ite (ofFlags_complementSet _) (.pure _)

theorem ofFlags_dotSet : OfFlags dotSet :=
  .bind .flags fun _ => .ite (.bind .failure fun _ => .pure _) (.pure _)

theorem ofFlags_letterClass (letter : Char) : OfFlags (letterClass letter) := by
  refine .bind .flags fun _ => ?_
  dsimp only
  split
  · exact .pure _
  · exact .pure _
  · exact .pure _
  · exact ofFlags_complementSet _
  · exact ofFlags_complementSet _
  · exact ofFlags_complementSet _
  · exact .failure

theorem ofFlags_wordSet : OfFlags wordSet := ofFlags_letterClass 'w'

/-! ### Names in braces and digits -/

theorem drops_untilBrace (fuel : Nat) (place : Place) : Drops 2 (untilBrace fuel) place := by
  induction fuel generalizing place with
  | zero => exact fun _ _ h => nomatch h
  | succ fuel ih =>
    intro name last h
    obtain ⟨c, after, hadvance, hlast⟩ := bind_eq_some.mp h
    obtain ⟨behind, hrest, hlength⟩ := exists_of_advance hadvance
    by_cases hc : c == '\x7d'
    · rw [if_pos hc, bind_of_some skip_apply, hrest] at hlast
      cases hlast
      have hsuffix := (shrinks_advance place).suffix hadvance
      rw [hrest] at hsuffix
      exact ⟨(List.suffix_cons c behind).trans hsuffix, hlength⟩
    · rw [if_neg hc] at hlast
      obtain ⟨name', last', hname, hlast⟩ := bind_eq_some.mp hlast
      cases hlast
      have hdrops := (ih after).length_le hname
      rw [hrest, List.length_cons] at hdrops
      exact ⟨((ih after).suffix hname).trans ((shrinks_advance place).suffix hadvance), by omega⟩

theorem shrinks_untilBrace (fuel : Nat) : Shrinks (untilBrace fuel) :=
  fun place => (drops_untilBrace fuel place).weaken (Nat.zero_le 2)

theorem bracketed_untilBrace {fuel : Nat} {fuel' : List Char → Nat} (hne : place.rest ≠ [])
    (hfuel : place.rest.length ≤ fuel) (hfuel' : ∀ s, place.rest.length ≤ fuel' s) :
    Bracketed nowhere (untilBrace fuel) (fun s => untilBrace (fuel' s)) place := by
  induction fuel generalizing place fuel' with
  | zero => exact absurd (List.length_eq_zero_iff.mp (Nat.le_zero.mp hfuel)) hne
  | succ fuel ih =>
    have hpos := List.length_pos_iff.mpr hne
    obtain ⟨less, rfl⟩ := exists_eq_succ fun s => Nat.lt_of_lt_of_le hpos (hfuel' s)
    refine .advance_bind hne (fun c after behind hadvance hrest => ?_) ?_ fun c s => ?_
    · refine .ite (fun _ => .skip_bind hrest (.pure _)) fun _ => ?_
      have hafter := length_lt_of_advance hadvance
      have hrun : Bracketed nowhere (untilBrace fuel) (fun s => untilBrace (less s)) after :=
        ih (by simp [hrest]) (by omega) fun s => by
        have hmore : place.rest.length ≤ less s + 1 := hfuel' s
        omega
      exact hrun.bind (fun _ _ _ => .pure _) (fun _ _ h => h.elim) (fun _ _ => .pure _)
        fun _ _ _ _ _ => rfl
    · intro stop hstop s name last h
      rw [if_neg (by decide)] at h
      obtain ⟨name', last', hname, hlast⟩ := bind_eq_some.mp h
      cases hlast
      exact .inl (Bracketed.short_of_drops hstop hname
        ((drops_untilBrace _ _).weaken (Nat.le_succ 1)))
    · exact .ite (.bind .skip fun _ => .pure _)
        ((shrinks_untilBrace _).bind fun _ => .pure _)

theorem shrinks_hexDigits (count value : Nat) : Shrinks (hexDigits count value) := by
  induction count generalizing value with
  | zero => exact .pure _
  | succ count ih => exact .bind .peek fun _ => .bind (.lift _) fun _ =>
    shrinks_pass.bind fun _ => ih _

theorem digit?_bracket : Hexadecimal.digit? ')' = none := by decide

theorem keeps_hexDigits (count value : Nat) (place : Place) :
    Keeps (hexDigits count value) place := by
  induction count generalizing value place with
  | zero => exact .pure _
  | succ count ih =>
    refine .peek_bind (fun c behind hrest => .lift_bind fun digit _ => ?_) fun _ s b after h => ?_
    · exact (keeps_pass (by simp [hrest])).andThen (fun _ middle _ => ih _ middle)
        fun _ => shrinks_hexDigits count _
    · rw [digit?_bracket] at h
      cases h

theorem ofFlags_codeOf (found : List Char) :
    OfFlags (found.foldlM (fun value c => do return value * 16 + (← Hexadecimal.digit? c)) 0) :=
  .foldlM (fun _ _ => .bind (.lift _) fun _ => .pure _) 0 found

theorem hexDigits_bracket (count value : Nat) {s : List Char} (h : place.rest = ')' :: s) :
    hexDigits (count + 1) value place = none := by
  rw [hexDigits, bind_of_some (peek_of_cons h), digit?_bracket]
  rfl

theorem shrinks_hexEscape (digits : Nat) : Shrinks (hexEscape digits) := by
  refine shrinks_advance.bind fun c => .ite ?_ ?_
  · refine .bind .rest fun _ => (shrinks_untilBrace _).bind fun found => .ite .failure_bind ?_
    exact (ofFlags_codeOf found).shrinks.bind fun _ => .lift _
  · refine (shrinks_hexDigits _ _).bind fun _ => .bind .flags fun _ => .ite .failure_bind ?_
    exact .bind (.pure _) fun _ => .lift _

theorem bracketed_untilBrace_length (hne : place.rest ≠ []) :
    Bracketed nowhere (untilBrace place.rest.length)
      (fun s => untilBrace (place.rest ++ ')' :: s).length) place :=
  bracketed_untilBrace hne (Nat.le_refl _) fun s => by
    rw [List.length_append]
    exact Nat.le_add_right _ _

theorem keeps_hexEscape {digits : Nat} (hdigits : 0 < digits) (hne : place.rest ≠ []) :
    Keeps (hexEscape digits) place := by
  have hcode : ∀ code, OfFlags (liftM (scalar? code) : Scan Char) := fun code => .lift _
  refine .advance_bind hne (fun c after behind _ hrest => ?_) ?_ fun c _ => ?_
  · refine .ite (fun _ => .rest_bind ?_) fun _ => ?_
    · refine (bracketed_untilBrace_length (by simp [hrest])).bind (fun found last _ => ?_)
        (fun _ _ h => h.elim) (fun found _ => ?_) fun _ _ _ _ _ => rfl
      · exact .ite (fun _ => .failure_bind) fun _ =>
          (ofFlags_codeOf found).bracketed_bind fun code => (hcode code).stays last
      · exact .ite .failure_bind
          ((ofFlags_codeOf found).shrinks.bind fun code => (hcode code).shrinks)
    · refine (keeps_hexDigits digits 0 after).andThen (fun code last _ => ?_) fun code => ?_
      · exact OfFlags.flags.bracketed_bind fun _ => .ite (fun _ => .failure_bind) fun _ =>
          (OfFlags.pure code).bracketed_bind fun code => (hcode code).stays last
      · exact .bind .flags fun _ =>
          .ite .failure_bind (.bind (.pure _) fun code => (hcode code).shrinks)
  · -- The bracket is no digit.
    intro stop hstop s c last h
    obtain ⟨more, rfl⟩ := Nat.exists_eq_add_of_lt hdigits
    rw [if_neg (by decide), bind_of_none (hexDigits_bracket _ _ (Place.rest_closed_of_nil hstop s))]
      at h
    cases h
  · refine .ite ?_ ?_
    · refine .bind .rest fun _ => (shrinks_untilBrace _).bind fun found => .ite .failure_bind ?_
      exact (ofFlags_codeOf found).shrinks.bind fun code => (hcode code).shrinks
    · refine (shrinks_hexDigits _ _).bind fun _ => .bind .flags fun _ => .ite .failure_bind ?_
      exact .bind (.pure _) fun code => (hcode code).shrinks

theorem ofFlags_namedClass (negated : Bool) (name : List Char) :
    OfFlags (match partAt? ['!', '='] name <|> partAt? [':'] name <|> partAt? ['='] name with
      | some (property, value) => do
        let set ← liftM (valueSet? property value)
        foldAndNegate negated set
      | none => do
        let set ← liftM (namedSet? name)
        foldAndNegate negated set) := by
  split
  · exact .bind (.lift _) fun _ => ofFlags_foldAndNegate _ _
  · exact .bind (.lift _) fun _ => ofFlags_foldAndNegate _ _

theorem shrinks_propertyClass (negated : Bool) : Shrinks (propertyClass negated) := by
  refine .bind .flags fun _ => .ite .failure_bind (shrinks_advance.bind fun c => .ite ?_ ?_)
  · exact .bind .rest fun _ => (shrinks_untilBrace _).bind fun name =>
      (ofFlags_namedClass negated name).shrinks
  · exact .ite .failure_bind (shrinks_pass.bind fun _ => .bind (.lift _) fun _ =>
      (ofFlags_foldAndNegate _ _).shrinks)

theorem keeps_propertyClass (negated : Bool) (hne : place.rest ≠ []) :
    Keeps (propertyClass negated) place := by
  refine OfFlags.flags.bracketed_bind fun _ => .ite (fun _ => .failure_bind) fun _ => ?_
  refine .advance_bind hne (fun c after behind _ hrest => ?_) ?_ fun c _ => .ite ?_ ?_
  · have hafter : after.rest ≠ [] := by simp [hrest]
    refine .ite (fun _ => .rest_bind ?_) fun _ => .ite (fun _ => .failure_bind) fun _ => ?_
    · exact (bracketed_untilBrace_length hafter).bind
        (fun name last _ => (ofFlags_namedClass negated name).stays last) (fun _ _ h => h.elim)
        (fun name _ => (ofFlags_namedClass negated name).shrinks) fun _ _ _ _ _ => rfl
    · exact (keeps_pass hafter).andThen
        (fun _ last _ => .lift_bind fun set _ => (ofFlags_foldAndNegate negated set).stays last)
        fun _ => .bind (.lift _) fun _ => (ofFlags_foldAndNegate _ _).shrinks
  · -- The bracket is passed over, whatever the set of its name is.
    intro stop hstop s set last h
    rw [if_neg (by decide), if_neg (by decide)] at h
    refine .inl (Bracketed.short_of_drops hstop h ?_)
    exact (drops_pass (by simp [Place.rest_closed_of_nil hstop])).bind_left
      fun _ => .bind (.lift _) fun _ => (ofFlags_foldAndNegate negated _).shrinks
  · exact .bind .rest fun _ => (shrinks_untilBrace _).bind fun name =>
      (ofFlags_namedClass negated name).shrinks
  · exact .ite .failure_bind (shrinks_pass.bind fun _ => .bind (.lift _) fun _ =>
      (ofFlags_foldAndNegate _ _).shrinks)

/-! ### Escapes -/

def isNameLetter (c : Char) : Bool := c.isAlpha || c == '-'

/-- The boundary of a special kind that a name stands for. -/
def boundaryOf (word : CharSet) (name : List Char) : Scan Anchor :=
  match String.ofList name with
  | "start" => return .wordStart word
  | "end" => return .wordEnd word
  | "start-half" => return .wordStartHalf word
  | "end-half" => return .wordEndHalf word
  | _ => failure

/-- A boundary of a special kind, from the first letter of its name on. -/
def namedBoundary (word : CharSet) : Scan Anchor := do
  let name ← takeWhile isNameLetter (← rest).length
  expect '}'
  boundaryOf word name

theorem ofFlags_boundaryOf (word : CharSet) (name : List Char) :
    OfFlags (boundaryOf word name) := by
  rw [boundaryOf]
  split <;> first | exact .pure _ | exact .failure

theorem shrinks_namedBoundary (word : CharSet) : Shrinks (namedBoundary word) :=
  .bind .rest fun _ => (shrinks_takeWhile _ _).bind fun name => (shrinks_expect _).bind fun _ =>
    (ofFlags_boundaryOf word name).shrinks

theorem keeps_namedBoundary (word : CharSet) (place : Place) :
    Keeps (namedBoundary word) place := by
  have hname : ∀ name, Shrinks (do expect '}'; boundaryOf word name) := fun name =>
    (shrinks_expect _).bind fun _ => (ofFlags_boundaryOf word name).shrinks
  refine .rest_bind ?_
  refine (bracketed_takeWhile (by decide) (Nat.le_refl _) fun s => ?_).bind (fun name after _ => ?_)
    (fun _ _ h => h.elim) (fun name _ => hname name) fun _ _ _ _ _ => rfl
  · rw [List.length_append, List.length_cons]
    omega
  · exact (keeps_expect _ after).andThen (fun _ last _ => (ofFlags_boundaryOf word name).stays last)
      fun _ => (ofFlags_boundaryOf word name).shrinks

theorem shrinks_boundary : Shrinks boundary := .of_suffix fun place anchor last h => by
  obtain ⟨word, after, hword, h⟩ := bind_eq_some.mp h
  rw [ofFlags_wordSet.eq_of_some hword] at h
  obtain ⟨before, after, hbefore, h⟩ := bind_eq_some.mp h
  cases hbefore
  obtain ⟨c, after, hc, h⟩ := bind_eq_some.mp h
  cases hc
  split at h
  · cases h
    exact List.suffix_rfl
  · obtain ⟨d, after, hadvance, h⟩ := bind_eq_some.mp h
    split at h
    · cases h
      exact List.suffix_rfl
    · exact ((shrinks_namedBoundary word after).suffix h).trans
        ((shrinks_advance place).suffix hadvance)

/-- The place before a brace that nothing follows. -/
def AtOpenBrace (stop : Place) : Prop := stop.rest.head? = some '{' ∧ advance stop = none

theorem stays_boundary (place : Place) : Stays (fun _ => AtOpenBrace) boundary place := by
  refine ofFlags_wordSet.bracketed_bind fun word =>
    .get_bind (.peek?_bind (fun c behind hrest => ?_) ?_)
  · refine .ite (fun _ => .pure _) fun hc => ?_
    have hhead : place.rest.head? = some '{' := by
      rw [hrest]
      simpa using hc
    rcases advance_closed (show place.rest ≠ [] by simp [hrest]) with ⟨d, after, alone, beside⟩ |
      ⟨alone, beside⟩
    · refine .bind_kept alone beside (.ite (fun _ => .kept _ place rfl fun _ => rfl) fun _ => ?_)
      exact (keeps_namedBoundary word after).weaken fun _ _ h => h.elim
    · refine .past (bind_of_none alone) fun s anchor last h => ?_
      obtain ⟨d, after, hadvance, h⟩ := bind_eq_some.mp h
      split at h
      · cases h
        exact .inr ⟨place, ⟨hhead, alone⟩, rfl⟩
      · rename_i hletter
        have hafter : after.rest <:+ s := by
          refine (beside s d after hadvance).resolve_right ?_
          rintro rfl
          exact hletter (by decide)
        exact .inl (((shrinks_namedBoundary word after).suffix h).trans hafter)
  · exact fun _ => (Bracketed.pure _).congr rfl fun _ => rfl

theorem drops_escape (hne : place.rest ≠ []) : Drops 1 escape place := by
  refine (drops_skip hne).bind_left fun _ => .bind .peek fun c => ?_
  split
  · exact (shrinks_hexEscape 2).bind fun _ => .pure _
  · exact (shrinks_hexEscape 4).bind fun _ => .pure _
  · exact (shrinks_hexEscape 8).bind fun _ => .pure _
  · exact (shrinks_propertyClass false).bind fun _ => .pure _
  · exact (shrinks_propertyClass true).bind fun _ => .pure _
  · refine .bind .skip fun _ => ?_
    split <;> first
      | exact (ofFlags_letterClass _).shrinks.bind fun _ => .pure _
      | exact .pure _
      | exact shrinks_boundary.bind fun _ => .pure _
      | exact ofFlags_wordSet.shrinks.bind fun _ => .pure _
      | exact .ite (.pure _) .failure

/-- What an escape halts with at a brace that nothing follows, a boundary. -/
def HaltsAtBoundary (e : Escape) (stop : Place) : Prop := (∃ a, e = .anchor a) ∧ AtOpenBrace stop

theorem stays_escape {behind : List Char} (hrest : place.rest = '\\' :: behind) :
    Stays HaltsAtBoundary escape place := by
  refine .skip_bind hrest (.peek_bind (fun c others hothers => ?_) ?_)
  · have hne : ({ place with rest := behind } : Place).rest ≠ [] :=
      hothers ▸ List.cons_ne_nil c others
    have hpure : ∀ {α : Type} {m : Scan α} (f : α → Escape), Keeps m { place with rest := behind } →
        Stays HaltsAtBoundary (m >>= fun a => pure (f a)) { place with rest := behind } := by
      intro α m f h
      exact h.andThen (fun a after _ => .pure (f a)) fun _ => .pure _
    change Stays _ _ _
    split
    · exact hpure _ (keeps_hexEscape (by decide) hne)
    · exact hpure _ (keeps_hexEscape (by decide) hne)
    · exact hpure _ (keeps_hexEscape (by decide) hne)
    · exact hpure _ (keeps_propertyClass false hne)
    · exact hpure _ (keeps_propertyClass true hne)
    · refine .skip_bind hothers ?_
      change Stays _ _ _
      split
      case h_15 =>
        refine (stays_boundary _).bind (fun _ _ _ => .pure _) (fun a stop hstop s e after h => ?_)
          (fun _ _ => .pure _) fun _ _ _ _ _ => rfl
        cases h
        exact .inr ⟨stop, ⟨⟨a, rfl⟩, hstop⟩, rfl⟩
      all_goals
        refine OfFlags.stays ?_ _
        first
        | exact .bind (ofFlags_letterClass _) fun _ => .pure _
        | exact .pure _
        | exact .bind ofFlags_wordSet fun _ => .pure _
        | exact .ite (.pure _) .failure
  · intro hnil s e after h
    change (skip >>= fun _ => if isEscapable ')' then pure (Escape.char ')') else failure) _ = _
      at h
    refine .inl (Bracketed.short_of_drops hnil h ?_)
    exact (drops_skip (by simp [Place.rest_closed_of_nil hnil])).bind_left fun _ =>
      .ite (.pure _) .failure

/-! ### Items and ranges of a class -/

theorem ofFlags_literalItem (c : Char) : OfFlags (classItem.literalItem c) :=
  .bind .flags fun _ => .ite (.pure _) .failure

theorem drops_classItem (place : Place) : Drops 1 classItem place := by
  refine .peek_bind fun c behind hrest => ?_
  split
  · refine (drops_escape (by simp [hrest])).bind_left fun e => ?_
    split
    · exact (ofFlags_literalItem _).shrinks
    · exact .pure _
    · exact .failure
  · exact (drops_next place).bind_left fun c => (ofFlags_literalItem c).shrinks

theorem shrinks_classItem : Shrinks classItem := fun place =>
  (drops_classItem place).weaken (Nat.zero_le 1)

theorem keeps_classItem (place : Place) : Keeps classItem place := by
  refine .peek_bind (fun c behind hrest => ?_) fun hnil s item after h => ?_
  · change Stays _ _ _
    split
    · refine (stays_escape hrest).bind (fun e last _ => ?_) (fun e stop hstop s item after h => ?_)
        (fun e _ => ?_) fun _ _ _ _ _ => rfl
      · change Stays _ _ _
        split
        · exact (ofFlags_literalItem _).stays last
        · exact .pure _
        · exact .failure
      · obtain ⟨⟨a, rfl⟩, -⟩ := hstop
        cases h
      · split
        · exact (ofFlags_literalItem _).shrinks
        · exact .pure _
        · exact .failure
    · exact (keeps_next place).andThen (fun c last _ => (ofFlags_literalItem c).stays last)
        fun c => (ofFlags_literalItem c).shrinks
  · change (next >>= fun c => classItem.literalItem c) _ = _ at h
    exact .inl (Bracketed.short_of_drops hnil h
      ((drops_next _).bind_left fun c => (ofFlags_literalItem c).shrinks))

/-- The set of a single item. -/
def itemSet : Char ⊕ CharSet → Scan CharSet
  | .inl c => return .single c
  | .inr s => return s

/-- The set of a range between two items. -/
def rangeSet : Char ⊕ CharSet → Char ⊕ CharSet → Scan CharSet
  | .inl low, .inl high => if low ≤ high then return .range low high else failure
  | _, _ => failure

/-- The range from an item on, of which the hyphen is next. -/
def rangeFrom (first : Char ⊕ CharSet) : Scan CharSet := do
  let _ ← advance
  rangeSet first (← classItem)

/-- Whether a character makes no range, given what follows it. -/
def endsItem (c : Char) (following : Option Char) : Bool :=
  c != '-' || following == some ']' || following == some '-'

theorem classRange_eq :
    classRange = classItem >>= fun first => skipBlank >>= fun _ => peek >>= fun c =>
      following? >>= fun following =>
        if endsItem c following then itemSet first else rangeFrom first :=
  rfl

theorem endsItem_firstBehind (c : Char) (verbose : Bool) (behind s : List Char) :
    endsItem c (firstBehind verbose (behind ++ ')' :: s)) =
      endsItem c (firstBehind verbose behind) := by
  rcases firstBehind_append verbose behind s with h | ⟨hnone, hbracket⟩
  · rw [h]
  · rw [hnone, hbracket]
    cases h : c != '-' <;> simp [endsItem, h]

theorem ofFlags_itemSet (first : Char ⊕ CharSet) : OfFlags (itemSet first) := by
  cases first <;> exact .pure _

theorem ofFlags_rangeSet (first second : Char ⊕ CharSet) : OfFlags (rangeSet first second) := by
  rw [rangeSet.eq_def]
  split
  · exact .ite (.pure _) .failure
  · exact .failure

theorem shrinks_rangeFrom (first : Char ⊕ CharSet) : Shrinks (rangeFrom first) :=
  shrinks_advance.bind fun _ => shrinks_classItem.bind fun second =>
    (ofFlags_rangeSet first second).shrinks

theorem keeps_rangeFrom (first : Char ⊕ CharSet) (hne : place.rest ≠ []) :
    Keeps (rangeFrom first) place := by
  refine .advance_bind hne (fun _ after _ _ _ => ?_)
    (fun stop hstop s set last h => ?_) fun _ _ => ?_
  · exact (keeps_classItem after).andThen
      (fun second last _ => (ofFlags_rangeSet first second).stays last)
      fun second => (ofFlags_rangeSet first second).shrinks
  · exact .inl (Bracketed.short_of_drops hstop h
      ((drops_classItem _).bind_left fun second => (ofFlags_rangeSet first second).shrinks))
  · exact shrinks_classItem.bind fun second => (ofFlags_rangeSet first second).shrinks

theorem drops_classRange (place : Place) : Drops 1 classRange place :=
  (drops_classItem place).bind_left fun first => shrinks_skipBlank.bind fun _ => .bind .peek
    fun _ => shrinks_following?.bind fun _ => .ite (ofFlags_itemSet first).shrinks
      (shrinks_rangeFrom first)

theorem stays_classRange (place : Place) :
    Stays (fun _ stop => stop.rest = []) classRange place := by
  have hshrinks : ∀ first c, Shrinks (following? >>= fun following =>
      if endsItem c following then itemSet first else rangeFrom first) := fun first c =>
    shrinks_following?.bind fun _ => .ite (ofFlags_itemSet first).shrinks (shrinks_rangeFrom first)
  rw [classRange_eq]
  refine (keeps_classItem place).andThen (fun first after _ => ?_) fun first =>
    shrinks_skipBlank.bind fun _ => .bind .peek (hshrinks first)
  refine (keeps_skipBlank after).andThen (fun _ middle _ => ?_) fun _ =>
    .bind .peek (hshrinks first)
  refine .peek_bind (fun c behind hrest => ?_) fun hnil s set last h => ?_
  · have hdecided : Stays (fun _ stop => stop.rest = [])
        (if endsItem c (firstBehind middle.flags.verbose behind) then itemSet first
          else rangeFrom first) middle :=
      .ite (fun _ => (ofFlags_itemSet first).stays middle) fun _ =>
        (keeps_rangeFrom first (by simp [hrest])).weaken fun _ _ h => h.elim
    refine hdecided.congr ?_ fun s => ?_
    · rw [bind_of_some following?_apply, hrest]
      rfl
    · have hbehind : (middle.closed s).rest.drop 1 = behind ++ ')' :: s := by
        rw [Place.closed, hrest]
        rfl
      rw [bind_of_some following?_apply, hbehind]
      exact congrFun (congrArg (fun ends : Bool => if ends then itemSet first else rangeFrom first)
        (endsItem_firstBehind c middle.flags.verbose behind s)) (middle.closed s)
  · -- The bracket makes no range, so the item ends before it.
    rw [bind_of_some following?_apply] at h
    have hends : endsItem ')' (firstBehind (middle.closed s).flags.verbose
        ((middle.closed s).rest.drop 1)) = true := rfl
    rw [hends, if_pos rfl] at h
    rw [(ofFlags_itemSet first).eq_of_some h]
    exact .inr ⟨middle, hnil, rfl⟩

/-! ### What opens a class -/

theorem shrinks_openingHyphens (fuel : Nat) : Shrinks (openingHyphens fuel) := by
  induction fuel with
  | zero => exact .failure
  | succ fuel ih =>
    exact .bind .peek fun _ =>
      .ite (shrinks_advance.bind fun _ => ih.bind fun _ => .pure _) (.pure _)

theorem openingHyphens_closed (fuel : Nat) (hnil : place.rest = []) (s : List Char) :
    openingHyphens (fuel + 1) (place.closed s) = some ([], place.closed s) := by
  rw [openingHyphens, bind_of_some (peek_of_cons (Place.rest_closed_of_nil hnil s))]
  rfl

theorem bracketed_openingHyphens {fuel : Nat} {fuel' : List Char → Nat}
    (hfuel : place.rest.length < fuel) (hfuel' : ∀ s, place.rest.length < fuel' s) :
    Bracketed (fun _ stop => stop.rest = []) (openingHyphens fuel)
    (fun s => openingHyphens (fuel' s))
      place := by
  induction fuel generalizing place fuel' with
  | zero => cases hfuel
  | succ fuel ih =>
    obtain ⟨less, rfl⟩ := exists_eq_succ fun s => Nat.zero_lt_of_lt (hfuel' s)
    refine .peek_bind (fun c behind hrest => ?_) fun hnil s found last h => ?_
    · refine .ite (fun _ => ?_) fun _ => .pure _
      refine .advance_bind (by simp [hrest]) (fun d after behind' hadvance hrest' => ?_)
        (fun stop hstop s found last h => ?_)
        fun _ s => (shrinks_openingHyphens _).bind fun _ => .pure _
      · have hafter := length_lt_of_advance hadvance
        have hrun : Bracketed (fun _ stop => stop.rest = []) (openingHyphens fuel)
            (fun s => openingHyphens (less s)) after := ih (by omega) fun s => by
          have hmore : place.rest.length < less s + 1 := hfuel' s
          omega
        refine hrun.bind (fun _ _ _ => .pure _) (fun hyphens stop hstop s found last h => ?_)
          (fun _ _ => .pure _) fun _ s after _ hnil => ?_
        · cases h
          exact .inr ⟨stop, hstop, rfl⟩
        · rfl
      · have hmore : 0 < less s := by
          have hlength : place.rest.length < less s + 1 := hfuel' s
          rw [hrest, List.length_cons] at hlength
          omega
        obtain ⟨more, hmore⟩ := Nat.exists_eq_add_of_lt hmore
        rw [hmore, bind_of_some (openingHyphens_closed _ hstop s)] at h
        cases h
        exact .inr ⟨stop, hstop, rfl⟩
    · cases h
      exact .inr ⟨place, hnil, rfl⟩

theorem shrinks_openingItems (fuel : Nat) : Shrinks (openingItems fuel) :=
  (shrinks_openingHyphens fuel).bind fun _ => .bind .peek fun _ =>
    .ite (shrinks_advance.bind fun _ => .pure _) (.pure _)

theorem bracketed_openingItems {fuel : Nat} {fuel' : List Char → Nat}
    (hfuel : place.rest.length < fuel) (hfuel' : ∀ s, place.rest.length < fuel' s) :
    Bracketed (fun _ stop => stop.rest = []) (openingItems fuel) (fun s => openingItems (fuel' s))
      place := by
  have hshrinks : ∀ hyphens : List (Nested CharSet), Shrinks (peek >>= fun c =>
      if hyphens.isEmpty && c == ']' then advance >>= fun _ => pure [.flat (.single ']')]
      else pure hyphens) := fun _ =>
    .bind .peek fun _ => .ite (shrinks_advance.bind fun _ => .pure _) (.pure _)
  refine (bracketed_openingHyphens hfuel hfuel').bind (fun hyphens after _ => ?_)
    (fun hyphens stop hstop s found last h => ?_) (fun hyphens _ => hshrinks hyphens)
      fun _ _ _ _ _ => rfl
  · refine .peek_bind (fun c behind hrest => ?_) fun hnil s found last h => ?_
    · refine .ite (fun _ => ?_) fun _ => .pure _
      refine .advance_bind (by simp [hrest]) (fun _ _ _ _ _ => .pure _)
        (fun stop hstop s found last h => ?_) fun _ _ => .pure _
      cases h
      exact .inr ⟨stop, hstop, rfl⟩
    · rw [if_neg (by simp)] at h
      cases h
      exact .inr ⟨after, hnil, rfl⟩
  · rw [bind_of_some (peek_of_cons (Place.rest_closed_of_nil hstop s)), if_neg (by simp)] at h
    cases h
    exact .inr ⟨stop, hstop, rfl⟩

/-! ### Names of ASCII classes and operators -/

theorem asciiClass?_bracket {name : List Char} (h : ')' ∈ name) :
    CharSet.asciiClass? (String.ofList name) = none := by
  have hnames : ∀ entry ∈ CharSet.asciiClasses, ∀ n ∈ entry.1, ')' ∉ n.toList := by decide +kernel
  rw [CharSet.asciiClass?, CharSet.lookup?, Option.map_eq_none_iff, Option.map_eq_none_iff,
    List.find?_eq_none]
  intro entry hentry hcontains
  have hmem : String.ofList name ∈ entry.1 := by simpa using hcontains
  exact hnames entry hentry _ hmem (by simpa using h)

/-- A class by its name, from the name on. -/
def classByName? (negated : Bool) (cs : List Char) : Option (Bool × CharSet × List Char) :=
  match cs.dropWhile (· != ':') with
  | ':' :: ']' :: rest =>
    (CharSet.asciiClass? (String.ofList (cs.takeWhile (· != ':')))).map fun set =>
      (negated, set, rest)
  | _ => none

theorem asciiClass?_plain {cs : List Char} (h : cs.head? ≠ some '^') :
    asciiClass? ('[' :: ':' :: cs) = classByName? false cs := by
  cases cs with
  | nil => rfl
  | cons c cs =>
    have hc : c ≠ '^' := fun heq => h (by rw [heq]; rfl)
    have hplain : ∀ rest, c :: cs = '^' :: rest → False := by
      intro rest heq
      cases heq
      exact hc rfl
    exact asciiClass?.eq_2 (c :: cs) hplain

theorem classByName?_of_colon (negated : Bool) {name : List Char} (h : ':' ∉ name)
    (cs : List Char) :
    classByName? negated (name ++ ':' :: cs) =
      match cs with
      | ']' :: rest =>
        (CharSet.asciiClass? (String.ofList name)).map fun set => (negated, set, rest)
      | _ => none := by
  have hname : ∀ c ∈ name, c != ':' := fun c hc => bne_iff_ne.mpr fun heq => h (heq ▸ hc)
  rw [classByName?, List.dropWhile_append_of_pos hname, List.takeWhile_append_of_pos hname,
    List.dropWhile_cons_of_neg (by decide), List.takeWhile_cons_of_neg (by decide), List.append_nil]
  cases cs with
  | nil => rfl
  | cons c cs =>
    by_cases hc : c = ']'
    · subst hc
      rfl
    · simp [hc]

theorem classByName?_closed (negated : Bool) (cs s : List Char) :
    classByName? negated (cs ++ ')' :: s) =
      (classByName? negated cs).map fun (negated, set, rest) =>
        (negated, set, rest ++ ')' :: s) := by
  by_cases hcolon : ':' ∈ cs
  · obtain ⟨name, behind, rfl, hname⟩ := List.eq_append_cons_of_mem hcolon
    rw [List.append_assoc, List.cons_append, classByName?_of_colon negated hname,
      classByName?_of_colon negated hname]
    cases behind with
    | nil => rfl
    | cons c behind =>
      by_cases hc : c = ']'
      · subst hc
        change Option.map _ _ = Option.map _ (Option.map _ _)
        rw [Option.map_map]
        rfl
      · simp [hc]
  · have hall : ∀ c ∈ cs, c != ':' := fun c hc => bne_iff_ne.mpr fun heq => hcolon (heq ▸ hc)
    have hnone : classByName? negated cs = none := by
      rw [classByName?, List.dropWhile_eq_nil_iff.mpr hall]
    have hname : ')' ∈ (cs ++ ')' :: s).takeWhile (· != ':') := by
      rw [List.takeWhile_append_of_pos hall, List.takeWhile_cons_of_pos (by decide)]
      simp
    rw [hnone, classByName?]
    split
    · rw [asciiClass?_bracket hname]
      rfl
    · rfl

theorem asciiClass?_closed (cs s : List Char) :
    asciiClass? (cs ++ ')' :: s) =
      (asciiClass? cs).map fun (negated, set, rest) => (negated, set, rest ++ ')' :: s) := by
  match cs with
  | [] => rfl
  | [c] => simp [asciiClass?]
  | c :: d :: cs =>
    by_cases hopen : c = '[' ∧ d = ':'
    · obtain ⟨rfl, rfl⟩ := hopen
      cases cs with
      | nil =>
        rw [asciiClass?_plain (by simp)]
        exact (@asciiClass?_plain (')' :: s) (by simp)).trans (classByName?_closed false [] s)
      | cons e cs =>
        by_cases he : e = '^'
        · subst he
          exact classByName?_closed true cs s
        · rw [asciiClass?_plain (by simp [he])]
          exact (asciiClass?_plain (by simp [he])).trans (classByName?_closed false (e :: cs) s)
    · have hnone : ∀ cs, asciiClass? (c :: d :: cs) = none := by
        intro cs
        rw [asciiClass?.eq_def]
        split
        · cases ‹_ = _›
          exact absurd ⟨rfl, rfl⟩ hopen
        · rfl
      rw [List.cons_append, List.cons_append, hnone, hnone]
      rfl

theorem suffix_of_classByName? {cs rest : List Char} {negated negated' : Bool} {set : CharSet}
    (h : classByName? negated cs = some (negated', set, rest)) :
    rest <:+ cs ∧ rest.length < cs.length := by
  have hdrop := List.dropWhile_suffix (l := cs) (· != ':')
  rw [classByName?] at h
  split at h
  · rename_i behind heq
    obtain ⟨_, -, hset⟩ := Option.map_eq_some_iff.mp h
    cases hset
    rw [heq] at hdrop
    have hlength := hdrop.length_le
    rw [List.length_cons, List.length_cons] at hlength
    exact ⟨((List.suffix_cons _ _).trans (List.suffix_cons _ _)).trans hdrop, by omega⟩
  · cases h

theorem suffix_of_asciiClass? {cs rest : List Char} {negated : Bool} {set : CharSet}
    (h : asciiClass? cs = some (negated, set, rest)) : rest <:+ cs ∧ rest.length < cs.length := by
  have hbehind : ∀ {front name : List Char} {signed : Bool},
      classByName? signed name = some (negated, set, rest) →
        rest <:+ front ++ name ∧ rest.length < (front ++ name).length := by
    intro front name signed hname
    obtain ⟨hsuffix, hlength⟩ := suffix_of_classByName? hname
    rw [List.length_append]
    exact ⟨hsuffix.trans (List.suffix_append front name), by omega⟩
  rw [asciiClass?.eq_def] at h
  split at h
  · rename_i behind
    cases behind with
    | nil => cases h
    | cons e behind =>
      by_cases he : e = '^'
      · subst he
        exact @hbehind ['[', ':', '^'] _ true h
      · have hplain : classByName? false (e :: behind) = some (negated, set, rest) := by
          rw [← asciiClass?_plain (by simp [he])]
          exact h
        exact @hbehind ['[', ':'] _ false hplain
  · cases h

theorem setOperation?_cons (c d : Char) (cs : List Char) :
    setOperation? (c :: d :: cs) = setOperation? [c, d] := by
  rw [setOperation?.eq_def]
  split
  · cases ‹_ = _›
    rfl
  · cases ‹_ = _›
    rfl
  · cases ‹_ = _›
    rfl
  · rw [setOperation?.eq_def]
    split <;> simp_all

theorem setOperation?_closed (c : Char) (cs s : List Char) :
    setOperation? (c :: cs ++ ')' :: s) = setOperation? (c :: cs) := by
  cases cs with
  | nil => simp [setOperation?]
  | cons d cs =>
    rw [List.cons_append, List.cons_append, setOperation?_cons, setOperation?_cons c d cs]

theorem two_le_of_setOperation? {cs : List Char} {op : SetOperation}
    (h : setOperation? cs = some op) :
    2 ≤ cs.length := by
  match cs with
  | [] => cases h
  | [c] => simp [setOperation?] at h
  | c :: d :: cs => simp

/-! ### Classes in square brackets -/

theorem ofFlags_total (g : Gathered) : OfFlags g.total := by
  obtain ⟨before, items⟩ := g
  cases before with
  | none => exact .pure _
  | some operand => exact .bind (ofFlags_widen _) fun _ => .bind (ofFlags_widen _) fun _ => .pure _

/-- A class from behind the sign that negates it. -/
def bracketItems (fuel : Nat) (negated : Bool) : Scan (Nested CharSet) := do
  let found ← bracketRest fuel (.ofItems (← openingItems (fuel + 1)))
  return ⟨← foldAndNegate negated found.value, found.depth + 1⟩

theorem bracket_succ (fuel : Nat) :
    bracket (fuel + 1) = advance >>= fun c =>
      if c == '^' then advance >>= fun _ => bracketItems fuel (c == '^')
      else bracketItems fuel (c == '^') := by
  rw [bracket]
  rfl

/-- One step in a class, given what is left of the pattern. -/
def bracketStep (fuel : Nat) (gathered : Gathered) (here : List Char) : Scan (Nested CharSet) :=
  match here with
  | [] => failure
  | ']' :: rest => do
    setRest rest
    gathered.total
  | '[' :: _ =>
    match asciiClass? here with
    | some (negated, set, rest) => do
      setRest rest
      bracketRest fuel (gathered.insert (.flat (← foldAndNegate negated set)))
    | none => do bracketRest fuel (gathered.insert (← bracket fuel))
  | _ =>
    match setOperation? here with
    | some op => do
      setRest (here.drop 2)
      bracketRest fuel ⟨some (op, ← gathered.total), []⟩
    | none => do bracketRest fuel (gathered.insert (.flat (← classRange)))

theorem bracketRest_succ (fuel : Nat) (gathered : Gathered) :
    bracketRest (fuel + 1) gathered =
      skipBlank >>= fun _ => rest >>= fun here => bracketStep fuel gathered here := by
  rw [bracketRest]
  rfl

theorem bracketStep_other (fuel : Nat) (gathered : Gathered) {c : Char} (hclose : c ≠ ']')
    (hopen : c ≠ '[') (behind : List Char) :
    bracketStep fuel gathered (c :: behind) =
      match setOperation? (c :: behind) with
      | some op => setRest ((c :: behind).drop 2) >>= fun _ => gathered.total >>= fun left =>
          bracketRest fuel ⟨some (op, left), []⟩
      | none => classRange >>= fun set => bracketRest fuel (gathered.insert (.flat set)) := by
  rw [bracketStep.eq_def]
  split
  · cases ‹_ = _›
  · cases ‹_ = _›
    exact absurd rfl hclose
  · cases ‹_ = _›
    exact absurd rfl hopen
  · rfl

theorem bracketRest_of_nil (fuel : Nat) (gathered : Gathered) (h : place.rest = []) :
    bracketRest fuel gathered place = none := by
  cases fuel with
  | zero => rw [bracketRest, failure_apply]
  | succ fuel =>
    rw [bracketRest_succ, bind_of_some (skipBlank_of_nil h), bind_of_some rest_apply, h]
    rfl

theorem drops_bracketItems {fuel : Nat}
    (hrest : ∀ gathered place, Drops 1 (bracketRest fuel gathered) place)
    (negated : Bool) (place : Place) : Drops 1 (bracketItems fuel negated) place :=
  (shrinks_openingItems _ place).bind_right fun _ after =>
    (hrest _ after).bind_left fun _ => (ofFlags_foldAndNegate _ _).shrinks.bind fun _ => .pure _

theorem drops_bracketStep {fuel : Nat} (hbracket : ∀ place, Drops 1 (bracket fuel) place)
    (hrest : ∀ gathered place, Drops 1 (bracketRest fuel gathered) place) (gathered : Gathered)
    (place : Place) : Drops 1 (bracketStep fuel gathered place.rest) place := by
  have hshrinks : ∀ gathered, Shrinks (bracketRest fuel gathered) := fun gathered place =>
    (hrest gathered place).weaken (Nat.zero_le 1)
  cases here : place.rest with
  | nil => exact fun _ _ h => nomatch h
  | cons c behind =>
    have hlength : place.rest.length = behind.length + 1 := by rw [here, List.length_cons]
    by_cases hclose : c = ']'
    · subst hclose
      exact .setRest_bind (here ▸ List.suffix_cons _ _) (by omega) (ofFlags_total gathered).shrinks
    · by_cases hopen : c = '['
      · subst hopen
        rw [bracketStep]
        split
        · rename_i negated set rest hclass
          obtain ⟨hsuffix, hless⟩ := suffix_of_asciiClass? hclass
          exact .setRest_bind (by rwa [here]) (by rw [here]; exact hless)
            ((ofFlags_foldAndNegate negated set).shrinks.bind fun _ => hshrinks _)
        · exact (hbracket place).bind_left fun _ => hshrinks _
      · rw [bracketStep_other fuel gathered hclose hopen]
        split
        · refine .setRest_bind (here ▸ List.drop_suffix _ _) ?_
            ((ofFlags_total gathered).shrinks.bind fun _ => hshrinks _)
          rw [List.length_drop, List.length_cons]
          omega
        · exact (drops_classRange place).bind_left fun _ => hshrinks _

theorem drops_brackets (fuel : Nat) :
    (∀ place, Drops 1 (bracket fuel) place) ∧
      ∀ gathered place, Drops 1 (bracketRest fuel gathered) place := by
  induction fuel with
  | zero =>
    refine ⟨fun place => ?_, fun gathered place => ?_⟩
    · rw [bracket]
      exact fun _ _ h => nomatch h
    · rw [bracketRest]
      exact fun _ _ h => nomatch h
  | succ fuel ih =>
    obtain ⟨hbracket, hrest⟩ := ih
    refine ⟨fun place => ?_, fun gathered place => ?_⟩
    · rw [bracket_succ]
      refine (shrinks_advance place).bind_right fun c after => ?_
      split
      · exact (shrinks_advance after).bind_right fun _ last => drops_bracketItems hrest _ last
      · exact drops_bracketItems hrest _ after
    · rw [bracketRest_succ]
      refine (shrinks_skipBlank place).bind_right fun _ after => ?_
      exact drops_bracketStep hbracket hrest gathered after

theorem drops_bracket (fuel : Nat) (place : Place) : Drops 1 (bracket fuel) place :=
  (drops_brackets fuel).1 place

theorem drops_bracketRest (fuel : Nat) (gathered : Gathered) (place : Place) :
    Drops 1 (bracketRest fuel gathered) place :=
  (drops_brackets fuel).2 gathered place

theorem shrinks_bracket (fuel : Nat) : Shrinks (bracket fuel) := fun place =>
  (drops_bracket fuel place).weaken (Nat.zero_le 1)

theorem shrinks_bracketRest (fuel : Nat) (gathered : Gathered) :
    Shrinks (bracketRest fuel gathered) :=
  fun place => (drops_bracketRest fuel gathered place).weaken (Nat.zero_le 1)

/-- The items of a class are read alike beside the bracket with so much fuel. -/
def ReadsItems (fuel : Nat) : Prop :=
  ∀ (place : Place) (fuel' : List Char → Nat) (gathered : Gathered),
    2 * place.rest.length + 1 ≤ fuel → (∀ s, 2 * place.rest.length + 1 ≤ fuel' s) →
      Bracketed nowhere (bracketRest fuel gathered) (fun s => bracketRest (fuel' s) gathered) place

/-- The same of a class that something is left of. -/
def ReadsClass (fuel : Nat) : Prop :=
  ∀ (place : Place) (fuel' : List Char → Nat), place.rest ≠ [] →
    2 * place.rest.length ≤ fuel → (∀ s, 2 * place.rest.length ≤ fuel' s) →
      Bracketed nowhere (bracket fuel) (fun s => bracket (fuel' s)) place

theorem ReadsItems.bracketed_bracketItems {fuel : Nat} (h : ReadsItems fuel) (negated : Bool)
    {fuel' : List Char → Nat} (hfuel : 2 * place.rest.length + 1 ≤ fuel)
    (hfuel' : ∀ s, 2 * place.rest.length + 1 ≤ fuel' s) :
    Bracketed nowhere (bracketItems fuel negated)
    (fun s => bracketItems (fuel' s) negated) place := by
  have hnegate : ∀ found : Nested CharSet, OfFlags (foldAndNegate negated found.value >>= fun set =>
      Pure.pure (f := Scan) (⟨set, found.depth + 1⟩ : Nested CharSet)) := fun found =>
    .bind (ofFlags_foldAndNegate negated found.value) fun _ => .pure _
  have hopening : Bracketed (fun _ stop => stop.rest = []) (openingItems (fuel + 1))
      (fun s => openingItems (fuel' s + 1)) place :=
    bracketed_openingItems (by omega) fun s => by
      have hmore := hfuel' s
      omega
  refine hopening.bind (fun items after hitems => ?_) (fun items stop hstop s set last h => ?_)
    (fun items s => (shrinks_bracketRest _ _).bind fun found => (hnegate found).shrinks)
    fun items s after _ hnil => ?_
  · have hshrinks := (shrinks_openingItems _ place).length_le hitems
    refine (h after fuel' (.ofItems items) (by omega) fun s => ?_).bind
      (fun found last _ => (hnegate found).stays last) (fun _ _ h => h.elim)
      (fun found _ => (hnegate found).shrinks) fun _ _ _ _ _ => rfl
    have hmore := hfuel' s
    omega
  · exact .inl (Bracketed.short_of_drops hstop h
      ((drops_bracketRest _ _ _).bind_left fun found => (hnegate found).shrinks))
  · rw [bind_of_none (bracketRest_of_nil _ _ hnil), bind_of_none (bracketRest_of_nil _ _ hnil)]

theorem ReadsItems.readsClass {fuel : Nat} (h : ReadsItems fuel) : ReadsClass (fuel + 1) := by
  intro place fuel' hne hfuel hfuel'
  have hpos := List.length_pos_iff.mpr hne
  obtain ⟨less, rfl⟩ := exists_eq_succ fun s => Nat.lt_of_lt_of_le hpos
    (Nat.le_trans (Nat.le_mul_of_pos_left _ Nat.two_pos) (hfuel' s))
  have hless : ∀ s, 2 * place.rest.length ≤ less s + 1 := hfuel'
  have hshrinks : ∀ s negated, Shrinks (bracketItems (less s) negated) := fun s negated place =>
    (drops_bracketItems (drops_bracketRest _) negated place).weaken (Nat.zero_le 1)
  simp only [bracket_succ]
  refine .advance_bind hne (fun c after behind hadvance hrest => ?_)
    (fun stop hstop s set last h => ?_)
    fun c s => .ite (shrinks_advance.bind fun _ => hshrinks s _) (hshrinks s _)
  · have hafter := length_lt_of_advance hadvance
    refine .ite (fun _ => ?_) fun _ => ?_
    · refine .advance_bind (by simp [hrest]) (fun d last _ hadvance' _ => ?_)
        (fun stop hstop s set last h => ?_) fun _ s => hshrinks s _
      · have hlast := length_lt_of_advance hadvance'
        exact h.bracketed_bracketItems _ (by omega) fun s => by have := hless s; omega
      · exact .inl (Bracketed.short_of_drops hstop h (drops_bracketItems (drops_bracketRest _) _ _))
    · exact h.bracketed_bracketItems _ (by omega) fun s => by have := hless s; omega
  · rw [if_neg (by decide)] at h
    exact .inl (Bracketed.short_of_drops hstop h (drops_bracketItems (drops_bracketRest _) _ _))

theorem bracketStep_ascii {behind rest : List Char} {negated : Bool} {set : CharSet}
    (h : asciiClass? ('[' :: behind) = some (negated, set, rest)) (fuel : Nat)
    (gathered : Gathered) :
    bracketStep fuel gathered ('[' :: behind) =
      setRest rest >>= fun _ => foldAndNegate negated set >>= fun set =>
        bracketRest fuel (gathered.insert (.flat set)) := by
  rw [bracketStep, h]

theorem bracketStep_nested {behind : List Char} (h : asciiClass? ('[' :: behind) = none)
    (fuel : Nat) (gathered : Gathered) :
    bracketStep fuel gathered ('[' :: behind) =
      bracket fuel >>= fun set => bracketRest fuel (gathered.insert set) := by
  rw [bracketStep, h]

section Steps

variable {fuel : Nat} {fuel' : List Char → Nat}

theorem ReadsItems.after (h : ReadsItems fuel) (hfuel : 2 * place.rest.length ≤ fuel)
    (hfuel' : ∀ s, 2 * place.rest.length ≤ fuel' s) (gathered : Gathered) (after : Place)
    (hless : after.rest.length < place.rest.length) :
    Bracketed nowhere (bracketRest fuel gathered) (fun s => bracketRest (fuel' s) gathered) after :=
  h after fuel' gathered (by omega) fun s => by
    have hmore := hfuel' s
    omega

theorem bracketRest_alike (fuel fuel' : Nat) (gathered : Gathered) {after : Place}
    (h : after.rest = []) : bracketRest fuel gathered after = bracketRest fuel' gathered after := by
  rw [bracketRest_of_nil _ _ h, bracketRest_of_nil _ _ h]

variable (hitems : ReadsItems fuel) (hfuel : 2 * place.rest.length ≤ fuel)
  (hfuel' : ∀ s, 2 * place.rest.length ≤ fuel' s) (gathered : Gathered) {c : Char}
  {behind : List Char}

include hitems hfuel hfuel'

theorem bracketed_itemOrRange (hclose : c ≠ ']') (hopen : c ≠ '[')
    (hop : setOperation? (c :: behind) = none) :
    Bracketed nowhere (bracketStep fuel gathered (c :: behind))
      (fun s => bracketStep (fuel' s) gathered (c :: behind ++ ')' :: s)) place := by
  have hrange : Bracketed nowhere
      (classRange >>= fun set => bracketRest fuel (gathered.insert (.flat set)))
      (fun s => classRange >>= fun set => bracketRest (fuel' s) (gathered.insert (.flat set)))
      place := by
    refine (stays_classRange place).bind (fun set after hset => ?_)
      (fun set stop hstop s found last h => ?_) (fun _ _ => shrinks_bracketRest _ _)
      fun set s after _ hnil => bracketRest_alike _ _ _ hnil
    · have hdrops := (drops_classRange place).length_le hset
      exact hitems.after hfuel hfuel' _ after (by omega)
    · exact .inl (Bracketed.short_of_drops hstop h (drops_bracketRest _ _ _))
  refine hrange.congr (by rw [bracketStep_other _ _ hclose hopen, hop]) fun s => ?_
  have hbeside := setOperation?_closed c behind s
  rw [hop, List.cons_append] at hbeside
  rw [List.cons_append, bracketStep_other _ _ hclose hopen, hbeside]

variable (here : place.rest = c :: behind)

include here

theorem bracketed_nestedClass (hclass : ReadsClass fuel) (hopen : c = '[')
    (hascii : asciiClass? ('[' :: behind) = none) :
    Bracketed nowhere (bracketStep fuel gathered (c :: behind))
      (fun s => bracketStep (fuel' s) gathered (c :: behind ++ ')' :: s)) place := by
  subst hopen
  have hnested : Bracketed nowhere
      (bracket fuel >>= fun set => bracketRest fuel (gathered.insert set))
      (fun s => bracket (fuel' s) >>= fun set => bracketRest (fuel' s) (gathered.insert set))
      place := by
    refine (hclass place fuel' (by simp [here]) hfuel hfuel').bind (fun set after hset => ?_)
      (fun _ _ h => h.elim) (fun _ _ => shrinks_bracketRest _ _)
      fun set s after _ hnil => bracketRest_alike _ _ _ hnil
    have hdrops := (drops_bracket fuel place).length_le hset
    exact hitems.after hfuel hfuel' _ after (by omega)
  refine hnested.congr (by rw [bracketStep_nested hascii]) fun s => ?_
  have hbeside := asciiClass?_closed ('[' :: behind) s
  rw [hascii, List.cons_append] at hbeside
  rw [List.cons_append, bracketStep_nested hbeside]

theorem bracketed_namedClass {negated : Bool} {set : CharSet} {rest : List Char} (hopen : c = '[')
    (hascii : asciiClass? ('[' :: behind) = some (negated, set, rest)) :
    Bracketed nowhere (bracketStep fuel gathered (c :: behind))
      (fun s => bracketStep (fuel' s) gathered (c :: behind ++ ')' :: s)) place := by
  subst hopen
  have hless : rest.length < place.rest.length := by
    rw [here]
    exact (suffix_of_asciiClass? hascii).2
  have hnamed : Bracketed nowhere
      (setRest rest >>= fun _ => foldAndNegate negated set >>= fun set =>
        bracketRest fuel (gathered.insert (.flat set)))
      (fun s => setRest (rest ++ ')' :: s) >>= fun _ => foldAndNegate negated set >>= fun set =>
        bracketRest (fuel' s) (gathered.insert (.flat set))) place :=
    .setRest_bind <| (ofFlags_foldAndNegate negated set).bracketed_bind fun set =>
      hitems.after hfuel hfuel' _ { place with rest } hless
  refine hnamed.congr (by rw [bracketStep_ascii hascii]) fun s => ?_
  have hbeside := asciiClass?_closed ('[' :: behind) s
  rw [hascii, List.cons_append] at hbeside
  rw [List.cons_append, bracketStep_ascii hbeside]

theorem bracketed_setOperation {op : SetOperation} (hclose : c ≠ ']') (hopen : c ≠ '[')
    (hop : setOperation? (c :: behind) = some op) :
    Bracketed nowhere (bracketStep fuel gathered (c :: behind))
      (fun s => bracketStep (fuel' s) gathered (c :: behind ++ ')' :: s)) place := by
  have htwo := two_le_of_setOperation? hop
  rw [List.length_cons] at htwo
  have hoperator : Bracketed nowhere
      (setRest ((c :: behind).drop 2) >>= fun _ => gathered.total >>= fun left =>
        bracketRest fuel ⟨some (op, left), []⟩)
      (fun s => setRest ((c :: behind).drop 2 ++ ')' :: s) >>= fun _ => gathered.total >>=
        fun left => bracketRest (fuel' s) ⟨some (op, left), []⟩) place := by
    refine .setRest_bind <| (ofFlags_total gathered).bracketed_bind fun left =>
      hitems.after hfuel hfuel' _ { place with rest := (c :: behind).drop 2 } ?_
    rw [here, List.length_drop, List.length_cons]
    omega
  refine hoperator.congr (by rw [bracketStep_other _ _ hclose hopen, hop]) fun s => ?_
  have hbeside := setOperation?_closed c behind s
  rw [hop] at hbeside
  rw [List.cons_append] at hbeside ⊢
  rw [bracketStep_other _ _ hclose hopen, hbeside, ← List.cons_append,
    List.drop_append_of_le_length (by rw [List.length_cons]; omega)]

end Steps

theorem bracketed_bracketStep {fuel : Nat} (hitems : ReadsItems fuel) (hclass : ReadsClass fuel)
    (gathered : Gathered) {fuel' : List Char → Nat} (hfuel : 2 * place.rest.length ≤ fuel)
    (hfuel' : ∀ s, 2 * place.rest.length ≤ fuel' s) :
    Bracketed nowhere (bracketStep fuel gathered place.rest)
      (fun s => bracketStep (fuel' s) gathered (place.rest ++ ')' :: s)) place := by
  cases here : place.rest with
  | nil =>
    refine .past rfl fun s set last h => .inl (Bracketed.short_of_drops here h ?_)
    have hdrops := drops_bracketStep (drops_bracket (fuel' s)) (drops_bracketRest _) gathered
      (place.closed s)
    rw [Place.rest_closed_of_nil here] at hdrops
    exact hdrops
  | cons c behind =>
    by_cases hclose : c = ']'
    · subst hclose
      exact .setRest_bind ((ofFlags_total gathered).stays _)
    by_cases hopen : c = '['
    · cases hascii : asciiClass? ('[' :: behind) with
      | none => exact bracketed_nestedClass hitems hfuel hfuel' gathered here hclass hopen hascii
      | some found =>
        obtain ⟨negated, set, rest⟩ := found
        exact bracketed_namedClass hitems hfuel hfuel' gathered here hopen hascii
    · cases hop : setOperation? (c :: behind) with
      | none => exact bracketed_itemOrRange hitems hfuel hfuel' gathered hclose hopen hop
      | some op => exact bracketed_setOperation hitems hfuel hfuel' gathered here hclose hopen hop

theorem ReadsItems.succ {fuel : Nat} (hitems : ReadsItems fuel) (hclass : ReadsClass fuel) :
    ReadsItems (fuel + 1) := by
  intro place fuel' gathered hfuel hfuel'
  obtain ⟨less, rfl⟩ := exists_eq_succ fun s => Nat.lt_of_lt_of_le (Nat.succ_pos _) (hfuel' s)
  have hless : ∀ s, 2 * place.rest.length + 1 ≤ less s + 1 := hfuel'
  simp only [bracketRest_succ]
  refine (keeps_skipBlank place).bind (fun _ middle hmiddle => ?_) (fun _ s middle => ?_)
    fun _ s middle _ hnil => ?_
  · have hshrinks := (shrinks_skipBlank place).length_le hmiddle
    exact .rest_bind (bracketed_bracketStep hitems hclass gathered (by omega) fun s => by
      have hmore := hless s
      omega)
  · exact (drops_bracketStep (drops_bracket _) (drops_bracketRest _) gathered middle).weaken
      (Nat.zero_le 1)
  · rw [bind_of_some rest_apply, bind_of_some rest_apply, hnil]
    rfl

theorem readsItems_and_readsClass (fuel : Nat) : ReadsItems fuel ∧ ReadsClass fuel := by
  induction fuel with
  | zero =>
    refine ⟨fun place fuel' gathered hfuel _ => absurd hfuel (by omega), ?_⟩
    intro place fuel' hne hfuel _
    have hpos := List.length_pos_iff.mpr hne
    omega
  | succ fuel ih => exact ⟨ih.1.succ ih.2, ih.1.readsClass⟩

/-- A class is read alike beside the bracket, with fuel for twice what is left. -/
theorem bracketed_bracket {fuel : Nat} {fuel' : List Char → Nat} (hne : place.rest ≠ [])
    (hfuel : 2 * place.rest.length ≤ fuel) (hfuel' : ∀ s, 2 * place.rest.length ≤ fuel' s) :
    Bracketed nowhere (bracket fuel) (fun s => bracket (fuel' s)) place :=
  (readsItems_and_readsClass fuel).2 place fuel' hne hfuel hfuel'

end ObjectQuery.Pattern
