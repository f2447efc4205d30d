import ObjectQuery.Pattern.Scan
import Mathlib.Data.List.TakeWhile
import Mathlib.Tactic.Choose

/-!
Reading beside a closing bracket. A reading that is given a closing bracket and more text behind its
own reads what it reads alone, or comes past the bracket, or takes it for a part of a comment.
-/

namespace ObjectQuery.Pattern

variable {α β : Type} {place : Place}

/-! ### Steps one after the other -/

namespace Scan

variable {m : Scan α} {k : α → Scan β}

theorem bind_of_some {a : α} {after : Place} (h : m place = some (a, after)) :
    (m >>= k) place = k a after := by
  change (m place).bind _ = _
  rw [h]
  rfl

theorem bind_of_none (h : m place = none) : (m >>= k) place = none := by
  change (m place).bind _ = _
  rw [h]
  rfl

theorem bind_eq_some {b : β} {last : Place} :
    (m >>= k) place = some (b, last) ↔
      ∃ a after, m place = some (a, after) ∧ k a after = some (b, last) := by
  constructor
  · intro h
    cases hm : m place with
    | none =>
      rw [bind_of_none hm] at h
      cases h
    | some result =>
      rw [bind_of_some hm] at h
      exact ⟨result.1, result.2, rfl, h⟩
  · rintro ⟨a, after, hm, hk⟩
    rwa [bind_of_some hm]

@[simp] theorem flags_apply : flags place = some (place.flags, place) := rfl

@[simp] theorem rest_apply : rest place = some (place.rest, place) := rfl

@[simp] theorem setRest_apply (rest : List Char) :
    setRest rest place = some ((), { place with rest }) := rfl

@[simp] theorem setFlags_apply (flags : Flags) :
    setFlags flags place = some ((), { place with flags }) := rfl

@[simp] theorem peek?_apply : peek? place = some (place.rest.head?, place) := rfl

@[simp] theorem skip_apply : skip place = some ((), { place with rest := place.rest.drop 1 }) := rfl

@[simp] theorem pure_apply (a : α) : (pure a : Scan α) place = some (a, place) := rfl

@[simp] theorem failure_apply : (failure : Scan α) place = none := rfl

theorem peek_of_nil (h : place.rest = []) : peek place = none := by
  rw [peek, bind_of_some rest_apply, h]
  rfl

theorem peek_of_cons {c : Char} {behind : List Char} (h : place.rest = c :: behind) :
    peek place = some (c, place) := by
  rw [peek, bind_of_some rest_apply, h]
  rfl

end Scan

open Scan

/-! ### What is left is an end of what there was -/

/-- So many characters at least are read from here and none put back, if the reading does not fail.
-/
def Drops (count : Nat) (m : Scan α) (place : Place) : Prop :=
  ∀ a after, m place = some (a, after) →
    after.rest <:+ place.rest ∧ after.rest.length + count ≤ place.rest.length

/-- Nothing is put back. -/
def Shrinks (m : Scan α) : Prop := ∀ place, Drops 0 m place

theorem Drops.suffix {m : Scan α} {count : Nat} {a : α} {after : Place} (h : Drops count m place)
    (hm : m place = some (a, after)) : after.rest <:+ place.rest :=
  (h a after hm).1

theorem Drops.length_le {m : Scan α} {count : Nat} {a : α} {after : Place} (h : Drops count m place)
    (hm : m place = some (a, after)) : after.rest.length + count ≤ place.rest.length :=
  (h a after hm).2

theorem Drops.weaken {m : Scan α} {count less : Nat} (h : Drops count m place)
    (hless : less ≤ count) :
    Drops less m place :=
  fun _ _ hm => ⟨h.suffix hm, Nat.le_trans (Nat.add_le_add_left hless _) (h.length_le hm)⟩

theorem Drops.bind {m : Scan α} {k : α → Scan β} {first second : Nat} (h : Drops first m place)
    (hk : ∀ a after, m place = some (a, after) → Drops second (k a) after) :
    Drops (first + second) (m >>= k) place := by
  intro b last hlast
  obtain ⟨a, after, hm, hk'⟩ := bind_eq_some.mp hlast
  have hfirst := h.length_le hm
  have hsecond := (hk a after hm).length_le hk'
  exact ⟨((hk a after hm).suffix hk').trans (h.suffix hm), by omega⟩

theorem Drops.bind_left {m : Scan α} {k : α → Scan β} {count : Nat} (h : Drops count m place)
    (hk : ∀ a, Shrinks (k a)) : Drops count (m >>= k) place :=
  h.bind fun a after _ => hk a after

theorem Drops.bind_right {m : Scan α} {k : α → Scan β} {count : Nat} (h : Drops 0 m place)
    (hk : ∀ a after, Drops count (k a) after) : Drops count (m >>= k) place := by
  intro b last hlast
  rw [← Nat.zero_add count]
  exact h.bind (fun a after _ => hk a after) b last hlast

theorem Drops.setRest_bind {k : Unit → Scan β} {rest : List Char} {count : Nat}
    (hsuffix : rest <:+ place.rest) (hlength : rest.length + count ≤ place.rest.length)
    (hk : Shrinks (k ())) : Drops count (setRest rest >>= k) place := by
  intro b last h
  rw [bind_of_some (setRest_apply rest)] at h
  have hshrinks := (hk _).length_le h
  have hset : ({ place with rest } : Place).rest.length = rest.length := rfl
  exact ⟨((hk _).suffix h).trans hsuffix, by omega⟩

namespace Shrinks

theorem of_suffix {m : Scan α}
    (h : ∀ place a after, m place = some (a, after) → after.rest <:+ place.rest) : Shrinks m :=
  fun place a after hm => ⟨h place a after hm, (h place a after hm).length_le⟩

@[simp] theorem pure (a : α) : Shrinks (pure a) := .of_suffix fun _ _ _ h => by
  cases h
  exact List.suffix_rfl

@[simp] theorem failure : Shrinks (failure : Scan α) := fun _ _ _ h => nomatch h

theorem bind {m : Scan α} {k : α → Scan β} (h : Shrinks m) (hk : ∀ a, Shrinks (k a)) :
    Shrinks (m >>= k) :=
  fun place => (h place).bind fun a after _ => hk a after

theorem failure_bind {k : α → Scan β} : Shrinks (Alternative.failure >>= k) :=
  fun _ _ _ h => nomatch h

theorem ite {c : Prop} [Decidable c] {m m' : Scan α} (h : Shrinks m) (h' : Shrinks m') :
    Shrinks (if c then m else m') := by
  split
  · exact h
  · exact h'

@[simp] theorem flags : Shrinks flags := .of_suffix fun _ _ _ h => by
  cases h
  exact List.suffix_rfl

@[simp] theorem rest : Shrinks rest := .of_suffix fun _ _ _ h => by
  cases h
  exact List.suffix_rfl

@[simp] theorem setFlags (flags : Flags) : Shrinks (setFlags flags) := .of_suffix fun _ _ _ h => by
  cases h
  exact List.suffix_rfl

@[simp] theorem peek? : Shrinks peek? := .of_suffix fun _ _ _ h => by
  cases h
  exact List.suffix_rfl

@[simp] theorem peek : Shrinks peek := .of_suffix fun place a after h => by
  cases hrest : place.rest with
  | nil =>
    rw [peek_of_nil hrest] at h
    cases h
  | cons c behind =>
    rw [peek_of_cons hrest] at h
    cases h
    exact hrest ▸ List.suffix_rfl

@[simp] theorem skip : Shrinks skip := .of_suffix fun _ _ _ h => by
  cases h
  exact List.drop_suffix _ _

@[simp] theorem lift (x : Option α) : Shrinks (liftM x : Scan α) := .of_suffix fun _ _ _ h => by
  cases x with
  | none => cases h
  | some b =>
    cases h
    exact List.suffix_rfl

end Shrinks

theorem drops_skip (h : place.rest ≠ []) : Drops 1 skip place := by
  obtain ⟨c, behind, hrest⟩ := List.exists_cons_of_ne_nil h
  intro a after hskip
  refine ⟨(Shrinks.skip place).suffix hskip, ?_⟩
  cases hskip
  simp [hrest]

theorem Drops.peek_bind {k : Char → Scan β} {count : Nat}
    (h : ∀ c behind, place.rest = c :: behind → Drops count (k c) place) :
    Drops count (peek >>= k) place := by
  intro b last hlast
  cases hrest : place.rest with
  | nil =>
    rw [bind_of_none (peek_of_nil hrest)] at hlast
    cases hlast
  | cons c behind =>
    rw [bind_of_some (peek_of_cons hrest)] at hlast
    exact hrest ▸ h c behind hrest b last hlast

/-! ### Beside a closing bracket -/

/-- The place with a closing bracket and a text behind what is left. -/
def Place.closed (place : Place) (s : List Char) : Place :=
  { place with rest := place.rest ++ ')' :: s }

theorem Place.rest_closed_of_nil (h : place.rest = []) (s : List Char) :
    (place.closed s).rest = ')' :: s := by
  rw [closed, h, List.nil_append]

theorem Place.rest_closed_of_cons {c : Char} {behind : List Char} (h : place.rest = c :: behind)
    (s : List Char) : (place.closed s).rest = c :: (behind ++ ')' :: s) := by
  rw [closed, h, List.cons_append]

/-- How the reading `m'` of a text with a closing bracket and more behind it stands to the reading
`m` of the text alone. Where the latter fails, the former may halt before the bracket. -/
inductive Bracketed (halts : α → Place → Prop) (m : Scan α) (m' : List Char → Scan α)
    (place : Place) : Prop where
  /-- The bracket makes no difference. -/
  | kept (a : α) (after : Place) (alone : m place = some (a, after))
      (beside : ∀ s, m' s (place.closed s) = some (a, after.closed s))
  /-- The text is too short alone, and the bracket is read. -/
  | past (alone : m place = none)
      (beside : ∀ s a after, m' s (place.closed s) = some (a, after) →
        after.rest <:+ s ∨ ∃ stop, halts a stop ∧ after = stop.closed s)
  /-- A comment goes on over the bracket. -/
  | hidden (alike : ∀ s, '\n' ∉ s → m' s (place.closed s) = m place)
      (beside : ∀ s a after, m' s (place.closed s) = some (a, after) → after.rest <:+ s)

/-- Nowhere before the bracket. -/
def nowhere : α → Place → Prop := fun _ _ => False

/-- The same reading alone and beside the bracket. -/
abbrev Stays (halts : α → Place → Prop) (m : Scan α) (place : Place) : Prop :=
  Bracketed halts m (fun _ => m) place

/-- A reading that halts nowhere before a bracket unless it would end there too. -/
abbrev Keeps (m : Scan α) (place : Place) : Prop := Stays nowhere m place

namespace Bracketed

variable {halts : α → Place → Prop} {halts' : β → Place → Prop} {m : Scan α}
  {m' : List Char → Scan α} {k : α → Scan β} {k' : α → List Char → Scan β}

theorem pure (a : α) : Stays halts (Pure.pure a) place :=
  .kept a place rfl fun _ => rfl

theorem failure : Stays halts (Alternative.failure : Scan α) place :=
  .past rfl fun _ _ _ h => nomatch h

theorem rest_eq_nil (alike : ∀ s, '\n' ∉ s → m' s (place.closed s) = m place)
    (beside : ∀ s a after, m' s (place.closed s) = some (a, after) → after.rest <:+ s)
    {a : α} {after : Place} (h : m place = some (a, after)) : after.rest = [] := by
  rw [← alike [] (List.not_mem_nil)] at h
  exact List.suffix_nil.mp (beside [] a after h)

theorem bind (h : Bracketed halts m m' place)
    (hnext : ∀ a after, m place = some (a, after) → Bracketed halts' (k a) (k' a) after)
    (hhalts : ∀ a stop, halts a stop → ∀ s b after, k' a s (stop.closed s) = some (b, after) →
      after.rest <:+ s ∨ ∃ stop', halts' b stop' ∧ after = stop'.closed s)
    (hshrinks : ∀ a s, Shrinks (k' a s))
    (hend : ∀ a s after, m place = some (a, after) → after.rest = [] → k' a s after = k a after) :
    Bracketed halts' (m >>= k) (fun s => m' s >>= fun a => k' a s) place := by
  cases h with
  | kept a after alone beside =>
    have hfirst : ∀ s, (m' s >>= fun a => k' a s) (place.closed s) = k' a s (after.closed s) :=
      fun s => bind_of_some (beside s)
    cases hnext a after alone with
    | kept b last alone' beside' =>
      exact .kept b last ((bind_of_some alone).trans alone') fun s => (hfirst s).trans (beside' s)
    | past alone' beside' =>
      refine .past ((bind_of_some alone).trans alone') fun s b last hlast => ?_
      rw [hfirst] at hlast
      exact beside' s b last hlast
    | hidden alike' beside' =>
      refine .hidden (fun s hs => ?_) fun s b last hlast => ?_
      · rw [hfirst, bind_of_some alone]
        exact alike' s hs
      · rw [hfirst] at hlast
        exact beside' s b last hlast
  | past alone beside =>
    refine .past (bind_of_none alone) fun s b last hlast => ?_
    obtain ⟨a, after, hfirst, hlast⟩ := bind_eq_some.mp hlast
    rcases beside s a after hfirst with hshort | ⟨stop, hstop, rfl⟩
    · exact .inl (((hshrinks a s after).suffix hlast).trans hshort)
    · exact hhalts a stop hstop s b last hlast
  | hidden alike beside =>
    refine .hidden (fun s hs => ?_) fun s b last hlast => ?_
    · cases hm : m place with
      | none => rw [bind_of_none hm, bind_of_none ((alike s hs).trans hm)]
      | some result =>
        rw [bind_of_some hm, bind_of_some ((alike s hs).trans hm)]
        exact hend _ s _ hm (rest_eq_nil alike beside hm)
    · obtain ⟨a, after, hfirst, hlast⟩ := bind_eq_some.mp hlast
      exact ((hshrinks a s after).suffix hlast).trans (beside s a after hfirst)

theorem congr {n : Scan α} {n' : List Char → Scan α} (h : Bracketed halts n n' place)
    (alone : m place = n place) (beside : ∀ s, m' s (place.closed s) = n' s (place.closed s)) :
    Bracketed halts m m' place := by
  cases h with
  | kept a after alone' beside' =>
    exact .kept a after (alone.trans alone') fun s => (beside s).trans (beside' s)
  | past alone' beside' =>
    exact .past (alone.trans alone') fun s a after h =>
      beside' s a after ((beside s).symm.trans h)
  | hidden alike beside' =>
    exact .hidden (fun s hs => (beside s).trans ((alike s hs).trans alone.symm)) fun s a after h =>
      beside' s a after ((beside s).symm.trans h)

theorem bind_kept {n : List Char → Scan α} {a : α} {after : Place}
    (alone : m place = some (a, after))
    (beside : ∀ s, n s (place.closed s) = some (a, after.closed s))
    (hnext : Bracketed halts' (k a) (k' a) after) :
    Bracketed halts' (m >>= k) (fun s => n s >>= fun a => k' a s) place := by
  cases hnext with
  | kept b last alone' beside' =>
    exact .kept b last ((bind_of_some alone).trans alone') fun s =>
      (bind_of_some (beside s)).trans (beside' s)
  | past alone' beside' =>
    refine .past ((bind_of_some alone).trans alone') fun s b last hlast => ?_
    rw [bind_of_some (beside s)] at hlast
    exact beside' s b last hlast
  | hidden alike beside' =>
    refine .hidden (fun s hs => ?_) fun s b last hlast => ?_
    · rw [bind_of_some (beside s), bind_of_some alone]
      exact alike s hs
    · rw [bind_of_some (beside s)] at hlast
      exact beside' s b last hlast

theorem skip_bind {k : Unit → Scan β} {k' : Unit → List Char → Scan β} {c : Char}
    {behind : List Char} (hrest : place.rest = c :: behind)
    (hnext : Bracketed halts' (k ()) (k' ()) { place with rest := behind }) :
    Bracketed halts' (skip >>= k) (fun s => skip >>= fun u => k' u s) place := by
  refine bind_kept (n := fun _ => skip) ?_ (fun s => ?_) hnext
  · rw [skip_apply, hrest, List.drop_one, List.tail_cons]
  · rw [skip_apply, Place.closed, hrest]
    rfl

theorem rest_bind {k : List Char → Scan β} {k' : List Char → List Char → Scan β}
    (h : Bracketed halts' (k place.rest) (fun s => k' (place.rest ++ ')' :: s) s) place) :
    Bracketed halts' (Scan.rest >>= k) (fun s => Scan.rest >>= fun here => k' here s) place :=
  h.congr rfl fun _ => rfl

theorem setRest_bind {k : Unit → Scan β} {k' : Unit → List Char → Scan β} {rest : List Char}
    (hnext : Bracketed halts' (k ()) (k' ()) { place with rest }) :
    Bracketed halts' (setRest rest >>= k) (fun s => setRest (rest ++ ')' :: s) >>= fun u => k' u s)
      place :=
  bind_kept (n := fun s => setRest (rest ++ ')' :: s)) rfl (fun _ => rfl) hnext

theorem peek_bind {k : Char → Scan β} {k' : Char → List Char → Scan β}
    (hcons : ∀ c behind, place.rest = c :: behind → Bracketed halts' (k c) (k' c) place)
    (hnil : place.rest = [] → ∀ s b after, k' ')' s (place.closed s) = some (b, after) →
      after.rest <:+ s ∨ ∃ stop, halts' b stop ∧ after = stop.closed s) :
    Bracketed halts' (peek >>= k) (fun s => peek >>= fun c => k' c s) place := by
  cases hrest : place.rest with
  | nil =>
    refine .past (bind_of_none (peek_of_nil hrest)) fun s b after h => hnil hrest s b after ?_
    have hbracket := Place.rest_closed_of_nil hrest s
    rwa [bind_of_some (peek_of_cons hbracket)] at h
  | cons c behind =>
    refine bind_kept (n := fun _ => peek) (peek_of_cons hrest) (fun s => ?_) (hcons c behind hrest)
    exact peek_of_cons (Place.rest_closed_of_cons hrest s)

/-- Where nothing is left the bracket has to be taken as the end of the text is. -/
theorem peek?_bind {k : Option Char → Scan β} {k' : Option Char → List Char → Scan β}
    (hcons : ∀ c behind, place.rest = c :: behind →
      Bracketed halts' (k (some c)) (k' (some c)) place)
    (hnil : place.rest = [] → Bracketed halts' (k none) (k' (some ')')) place) :
    Bracketed halts' (peek? >>= k) (fun s => peek? >>= fun c => k' c s) place := by
  cases hrest : place.rest with
  | nil =>
    refine (hnil hrest).congr ?_ fun s => ?_
    · rw [bind_of_some peek?_apply, hrest]
      rfl
    · rw [bind_of_some peek?_apply, Place.closed, hrest]
      rfl
  | cons c behind =>
    refine (hcons c behind hrest).congr ?_ fun s => ?_
    · rw [bind_of_some peek?_apply, hrest]
      rfl
    · rw [bind_of_some peek?_apply, Place.closed, hrest]
      rfl

theorem get_bind {k : Place → Scan β} {k' : Place → List Char → Scan β}
    (h : Bracketed halts' (k place) (fun s => k' (place.closed s) s) place) :
    Bracketed halts' (get >>= k) (fun s => get >>= fun here => k' here s) place :=
  h.congr rfl fun _ => rfl

theorem weaken {more : α → Place → Prop} (h : Bracketed halts m m' place)
    (hmore : ∀ a stop, halts a stop → more a stop) : Bracketed more m m' place := by
  cases h with
  | kept a after alone beside => exact .kept a after alone beside
  | past alone beside =>
    refine .past alone fun s a after h => (beside s a after h).imp_right ?_
    rintro ⟨stop, hstop, rfl⟩
    exact ⟨stop, hmore a stop hstop, rfl⟩
  | hidden alike beside => exact .hidden alike beside

theorem ite {c : Prop} [Decidable c] {n : Scan α} {n' : List Char → Scan α}
    (h : c → Bracketed halts m m' place) (hnot : ¬ c → Bracketed halts n n' place) :
    Bracketed halts (if c then m else n) (fun s => if c then m' s else n' s) place := by
  by_cases hc : c
  · simpa only [if_pos hc] using h hc
  · simpa only [if_neg hc] using hnot hc

theorem failure_bind {k : α → Scan β} {k' : α → List Char → Scan β} :
    Bracketed halts' (Alternative.failure >>= k)
      (fun s => Alternative.failure >>= fun a => k' a s) place :=
  .past rfl fun _ _ _ h => nomatch h

theorem lift_bind {x : Option α} (h : ∀ a, x = some a → Bracketed halts' (k a) (k' a) place) :
    Bracketed halts' (liftM x >>= k) (fun s => liftM x >>= fun a => k' a s) place := by
  cases x with
  | none => exact .past rfl fun _ _ _ h => nomatch h
  | some a => exact (h a rfl).congr rfl fun _ => rfl

theorem short_of_drops {n : Scan α} {s : List Char} {a : α} {after : Place} (hnil : place.rest = [])
    (hn : n (place.closed s) = some (a, after)) (h : Drops 1 n (place.closed s)) :
    after.rest <:+ s := by
  have hsuffix := h.suffix hn
  have hlength := h.length_le hn
  rw [Place.rest_closed_of_nil hnil] at hsuffix hlength
  refine (List.suffix_cons_iff.mp hsuffix).resolve_left fun heq => ?_
  rw [heq] at hlength
  omega

theorem past_of_none (h : Bracketed halts m m' place) (hnone : m place = none)
    (s : List Char) (a : α) (after : Place) (hm : m' s (place.closed s) = some (a, after)) :
    after.rest <:+ s ∨ ∃ stop, halts a stop ∧ after = stop.closed s := by
  cases h with
  | kept b last alone _ =>
    rw [hnone] at alone
    cases alone
  | past _ beside => exact beside s a after hm
  | hidden _ beside => exact .inl (beside s a after hm)

end Bracketed

namespace Keeps

variable {halts : β → Place → Prop} {m : Scan α} {k : α → Scan β} {k' : α → List Char → Scan β}

theorem bind (h : Keeps m place)
    (hnext : ∀ a after, m place = some (a, after) → Bracketed halts (k a) (k' a) after)
    (hshrinks : ∀ a s, Shrinks (k' a s))
    (hend : ∀ a s after, m place = some (a, after) → after.rest = [] → k' a s after = k a after) :
    Bracketed halts (m >>= k) (fun s => m >>= fun a => k' a s) place :=
  Bracketed.bind h hnext (fun _ _ h => h.elim) hshrinks hend

theorem andThen (h : Keeps m place)
    (hnext : ∀ a after, m place = some (a, after) → Stays halts (k a) after)
    (hshrinks : ∀ a, Shrinks (k a)) : Stays halts (m >>= k) place :=
  h.bind hnext (fun a _ => hshrinks a) fun _ _ _ _ _ => rfl

end Keeps

/-! ### What depends on the flags alone -/

/-- A reading that reads nothing, but looks at the flags. -/
def OfFlags (m : Scan α) : Prop :=
  ∃ f : Flags → Option α, ∀ place, m place = (f place.flags).map fun a => (a, place)

namespace OfFlags

variable {m : Scan α} {k : α → Scan β}

theorem pure (a : α) : OfFlags (Pure.pure a : Scan α) := ⟨fun _ => some a, fun _ => rfl⟩

theorem failure : OfFlags (Alternative.failure : Scan α) := ⟨fun _ => none, fun _ => rfl⟩

theorem lift (x : Option α) : OfFlags (liftM x : Scan α) :=
  ⟨fun _ => x, fun _ => by cases x <;> rfl⟩

theorem flags : OfFlags Scan.flags := ⟨fun flags => some flags, fun _ => rfl⟩

theorem bind (h : OfFlags m) (hk : ∀ a, OfFlags (k a)) : OfFlags (m >>= k) := by
  obtain ⟨f, hf⟩ := h
  choose g hg using hk
  refine ⟨fun flags => (f flags).bind fun a => g a flags, fun place => ?_⟩
  simp only
  cases ha : f place.flags with
  | none =>
    have hnone : m place = none := by rw [hf, ha]; rfl
    rw [bind_of_none hnone]
    rfl
  | some a =>
    have hsome : m place = some (a, place) := by rw [hf, ha]; rfl
    rw [bind_of_some hsome]
    exact hg a place

theorem ite {c : Prop} [Decidable c] {m m' : Scan α} (h : OfFlags m) (h' : OfFlags m') :
    OfFlags (if c then m else m') := by
  split
  · exact h
  · exact h'

theorem foldlM {f : β → α → Scan β} (h : ∀ b a, OfFlags (f b a)) (b : β) (items : List α) :
    OfFlags (items.foldlM f b) := by
  induction items generalizing b with
  | nil => exact .pure b
  | cons a items ih => exact (h b a).bind ih

theorem eq_of_some (h : OfFlags m) {a : α} {after : Place} (hm : m place = some (a, after)) :
    after = place := by
  obtain ⟨f, hf⟩ := h
  rw [hf] at hm
  obtain ⟨_, -, heq⟩ := Option.map_eq_some_iff.mp hm
  cases heq
  rfl

theorem shrinks (h : OfFlags m) : Shrinks m := .of_suffix fun place a after hm => by
  obtain rfl := h.eq_of_some hm
  exact List.suffix_rfl

theorem bracketed_bind {halts : β → Place → Prop} {k' : α → List Char → Scan β} (h : OfFlags m)
    (hnext : ∀ a, Bracketed halts (k a) (k' a) place) :
    Bracketed halts (m >>= k) (fun s => m >>= fun a => k' a s) place := by
  obtain ⟨f, hf⟩ := h
  have hbeside : ∀ s, m (place.closed s) = (f place.flags).map fun a => (a, place.closed s) :=
    fun s => hf (place.closed s)
  cases ha : f place.flags with
  | none =>
    refine .past (bind_of_none (by rw [hf, ha]; rfl)) fun s b after h => ?_
    rw [bind_of_none (by rw [hbeside, ha]; rfl)] at h
    cases h
  | some a =>
    exact .bind_kept (n := fun _ => m) (by rw [hf, ha]; rfl) (fun s => by rw [hbeside, ha]; rfl)
      (hnext a)

theorem stays {halts : α → Place → Prop} (h : OfFlags m) (place : Place) : Stays halts m place := by
  have hbind : Stays halts (m >>= Pure.pure) place := h.bracketed_bind fun a => .pure a
  rwa [bind_pure] at hbind

end OfFlags

/-! ### Single steps -/

theorem next_of_nil (h : place.rest = []) : next place = none := by
  rw [next, bind_of_none (peek_of_nil h)]

theorem next_of_cons {c : Char} {behind : List Char} (h : place.rest = c :: behind) :
    next place = some (c, { place with rest := behind }) := by
  rw [next, bind_of_some (peek_of_cons h), bind_of_some skip_apply, h]
  rfl

theorem drops_next (place : Place) : Drops 1 next place := by
  intro a after h
  cases hrest : place.rest with
  | nil =>
    rw [next_of_nil hrest] at h
    cases h
  | cons c behind =>
    rw [next_of_cons hrest] at h
    cases h
    exact ⟨List.suffix_cons _ behind, Nat.le_refl _⟩

theorem shrinks_next : Shrinks next := fun place => (drops_next place).weaken (Nat.zero_le 1)

theorem keeps_next (place : Place) : Keeps next place := by
  cases hrest : place.rest with
  | nil =>
    refine .past (next_of_nil hrest) fun s a after h => .inl ?_
    have hbracket := Place.rest_closed_of_nil hrest s
    rw [next_of_cons hbracket] at h
    cases h
    exact List.suffix_rfl
  | cons c behind =>
    refine .kept c { place with rest := behind } (next_of_cons hrest) fun s => ?_
    exact next_of_cons (Place.rest_closed_of_cons hrest s)

theorem Bracketed.next_bind {halts : β → Place → Prop} {k : Char → Scan β}
    {k' : Char → List Char → Scan β}
    (hcons : ∀ c behind, place.rest = c :: behind →
      Bracketed halts (k c) (k' c) { place with rest := behind })
    (hshrinks : ∀ s, Shrinks ( k' ')' s)) :
    Bracketed halts (next >>= k) (fun s => next >>= fun c => k' c s) place := by
  cases hrest : place.rest with
  | nil =>
    refine .past (bind_of_none (next_of_nil hrest)) fun s b after h => .inl ?_
    have hbracket := Place.rest_closed_of_nil hrest s
    rw [bind_of_some (next_of_cons hbracket)] at h
    exact (hshrinks s _).suffix h
  | cons c behind =>
    refine .bind_kept (n := fun _ => next) (next_of_cons hrest) (fun s => ?_) (hcons c behind hrest)
    exact next_of_cons (Place.rest_closed_of_cons hrest s)

theorem shrinks_expect (c : Char) : Shrinks (expect c) :=
  shrinks_next.bind fun _ => .ite .failure (.pure _)

theorem keeps_expect (c : Char) (place : Place) : Keeps (expect c) place := by
  refine (keeps_next place).andThen (fun a after _ => ?_) fun _ => .ite .failure (.pure _)
  split
  · exact .failure
  · exact .pure _

theorem takeText_apply (text : String) :
    takeText text place =
      if text.toList.isPrefixOf place.rest
      then some (true, { place with rest := place.rest.drop text.length })
      else some (false, place) := by
  rw [takeText, bind_of_some rest_apply]
  split <;> rfl

theorem shrinks_takeText (text : String) : Shrinks (takeText text) :=
  .of_suffix fun place a after h => by
  rw [takeText_apply] at h
  split at h <;> cases h
  · exact List.drop_suffix _ _
  · exact List.suffix_rfl

theorem isPrefixOf_append {text cs : List Char} (h : ')' ∉ text) (s : List Char) :
    text.isPrefixOf (cs ++ ')' :: s) = text.isPrefixOf cs := by
  induction text generalizing cs with
  | nil => rfl
  | cons t text ih =>
    obtain ⟨ht, htext⟩ := not_or.mp (List.mem_cons.not.mp h)
    cases cs with
    | nil =>
      have hne : (t == ')') = false := beq_eq_false_iff_ne.mpr (Ne.symm ht)
      rw [List.nil_append, List.isPrefixOf_cons_cons, hne]
      rfl
    | cons c cs =>
      rw [List.cons_append, List.isPrefixOf_cons_cons, List.isPrefixOf_cons_cons, ih htext]

theorem takeText_closed (text : String) (h : ')' ∉ text.toList) (place : Place) :
    ∃ found after, takeText text place = some (found, after) ∧
      ∀ s, takeText text (place.closed s) = some (found, after.closed s) := by
  by_cases hprefix : text.toList.isPrefixOf place.rest
  · have hlength : text.length ≤ place.rest.length := by
      rw [← String.length_toList]
      exact (List.isPrefixOf_iff_prefix.mp hprefix).length_le
    refine ⟨true, { place with rest := place.rest.drop text.length }, ?_, fun s => ?_⟩
    · rw [takeText_apply, if_pos hprefix]
    · rw [takeText_apply, Place.closed, isPrefixOf_append h, if_pos hprefix,
        List.drop_append_of_le_length hlength]
      rfl
  · refine ⟨false, place, ?_, fun s => ?_⟩
    · rw [takeText_apply, if_neg hprefix]
    · rw [takeText_apply, Place.closed, isPrefixOf_append h, if_neg hprefix]

theorem Bracketed.takeText_bind {halts : β → Place → Prop} {text : String} {k : Bool → Scan β}
    {k' : Bool → List Char → Scan β} (h : ')' ∉ text.toList)
    (hnext : ∀ found after, Bracketed halts (k found) (k' found) after) :
    Bracketed halts (takeText text >>= k) (fun s => takeText text >>= fun found => k' found s)
      place := by
  obtain ⟨found, after, alone, beside⟩ := takeText_closed text h place
  exact .bind_kept alone beside (hnext found after)

/-! ### Blanks and comments -/

theorem dropBlank_nil (fuel : Nat) : dropBlank fuel [] = [] := by
  cases fuel <;> rfl

theorem dropBlank_comment (fuel : Nat) (behind : List Char) :
    dropBlank (fuel + 1) ('#' :: behind) = dropBlank fuel (behind.dropWhile (· != '\n')) := rfl

theorem dropBlank_cons (fuel : Nat) {c : Char} (hc : c ≠ '#') (behind : List Char) :
    dropBlank (fuel + 1) (c :: behind) =
      if isBlank c then dropBlank fuel behind else c :: behind := by
  simp [dropBlank]

theorem dropBlank_suffix (fuel : Nat) (cs : List Char) : dropBlank fuel cs <:+ cs := by
  induction fuel generalizing cs with
  | zero => exact List.suffix_rfl
  | succ fuel ih =>
    cases cs with
    | nil => exact List.suffix_rfl
    | cons c behind =>
      by_cases hc : c = '#'
      · subst hc
        rw [dropBlank_comment]
        exact ((ih _).trans (List.dropWhile_suffix _)).trans (List.suffix_cons _ _)
      · rw [dropBlank_cons fuel hc]
        split
        · exact (ih behind).trans (List.suffix_cons _ _)
        · exact List.suffix_rfl

theorem isBlank_bracket : isBlank ')' = false := by decide +kernel

theorem dropWhile_append_bracket {isIn : Char → Bool} (h : isIn ')' = false) (cs s : List Char) :
    (cs ++ ')' :: s).dropWhile isIn = cs.dropWhile isIn ++ ')' :: s := by
  induction cs with
  | nil => rw [List.nil_append, List.dropWhile_cons_of_neg (by simp [h])]; rfl
  | cons c cs ih =>
    by_cases hc : isIn c
    · rw [List.cons_append, List.dropWhile_cons_of_pos hc, List.dropWhile_cons_of_pos hc, ih]
    · rw [List.cons_append, List.dropWhile_cons_of_neg hc, List.dropWhile_cons_of_neg hc]
      rfl

theorem Bracketed.dropWhile_bind {halts : β → Place → Prop} {isIn : Char → Bool}
    {k : Unit → Scan β} {k' : Unit → List Char → Scan β} (h : isIn ')' = false)
    (hnext : Bracketed halts (k ()) (k' ()) { place with rest := place.rest.dropWhile isIn }) :
    Bracketed halts (Scan.rest >>= fun here => setRest (here.dropWhile isIn) >>= k)
      (fun s =>
        Scan.rest >>= fun here => setRest (here.dropWhile isIn) >>= fun u => k' u s) place := by
  have hset : Bracketed halts (setRest (place.rest.dropWhile isIn) >>= k)
      (fun s => setRest (place.rest.dropWhile isIn ++ ')' :: s) >>= fun u => k' u s) place :=
    .setRest_bind hnext
  refine hset.congr (bind_of_some rest_apply) fun s => (bind_of_some rest_apply).trans ?_
  rw [Place.closed, dropWhile_append_bracket h]

theorem Shrinks.dropWhile_bind {isIn : Char → Bool} {k : Unit → Scan β} (hk : Shrinks (k ())) :
    Shrinks (Scan.rest >>= fun here => setRest (here.dropWhile isIn) >>= k) :=
  .of_suffix fun place b last h => by
    rw [bind_of_some rest_apply, bind_of_some (setRest_apply _)] at h
    exact ((hk _).suffix h).trans (List.dropWhile_suffix _)

theorem dropBlank_bracket {fuel : Nat} {s : List Char} (hfuel : s.length < fuel) :
    dropBlank fuel (')' :: s) = ')' :: s := by
  obtain ⟨fuel, rfl⟩ := Nat.exists_eq_add_of_lt (Nat.zero_lt_of_lt hfuel)
  rw [dropBlank_cons _ (by decide), isBlank_bracket]
  rfl

/-- Passing over blanks and comments ends before the bracket, or a comment is not at its end there.
-/
def BlanksClosed (fuel : Nat) (cs : List Char) : Prop :=
  (∀ s fuel', (cs ++ ')' :: s).length ≤ fuel' →
    dropBlank fuel' (cs ++ ')' :: s) = dropBlank fuel cs ++ ')' :: s) ∨
  dropBlank fuel cs = [] ∧ ∀ s fuel', (cs ++ ')' :: s).length ≤ fuel' →
    dropBlank fuel' (cs ++ ')' :: s) <:+ s ∧
    ('\n' ∉ s → dropBlank fuel' (cs ++ ')' :: s) = [])

theorem exists_succ_of_length_le {c : Char} {behind s : List Char} {fuel : Nat}
    (h : (c :: behind ++ ')' :: s).length ≤ fuel) :
    ∃ more, fuel = more + 1 ∧ (behind ++ ')' :: s).length ≤ more := by
  rw [List.cons_append, List.length_cons] at h
  exact ⟨fuel - 1, by omega, by omega⟩

theorem BlanksClosed.pass {fuel : Nat} {c : Char} {behind left : List Char}
    (h : BlanksClosed fuel left) (hlength : left.length ≤ behind.length)
    (halone : dropBlank (fuel + 1) (c :: behind) = dropBlank fuel left)
    (hbeside : ∀ s more,
      dropBlank (more + 1) (c :: behind ++ ')' :: s) = dropBlank more (left ++ ')' :: s)) :
    BlanksClosed (fuel + 1) (c :: behind) := by
  have hmore : ∀ {s : List Char} {more : Nat}, (behind ++ ')' :: s).length ≤ more →
      (left ++ ')' :: s).length ≤ more := by
    intro s more hle
    rw [List.length_append] at hle ⊢
    omega
  rw [BlanksClosed, halone]
  rcases h with hkept | ⟨hnil, hpast⟩
  · refine .inl fun s fuel' hfuel' => ?_
    obtain ⟨more, rfl, hle⟩ := exists_succ_of_length_le hfuel'
    rw [hbeside]
    exact hkept s more (hmore hle)
  · refine .inr ⟨hnil, fun s fuel' hfuel' => ?_⟩
    obtain ⟨more, rfl, hle⟩ := exists_succ_of_length_le hfuel'
    rw [hbeside]
    exact hpast s more (hmore hle)

theorem blanksClosed_comment {behind : List Char} (h : behind.dropWhile (· != '\n') = [])
    (fuel : Nat) : BlanksClosed (fuel + 1) ('#' :: behind) := by
  refine .inr ⟨by rw [dropBlank_comment, h, dropBlank_nil], fun s fuel' hfuel' => ?_⟩
  obtain ⟨more, rfl, -⟩ := exists_succ_of_length_le hfuel'
  have hrest : (behind ++ ')' :: s).dropWhile (· != '\n') = s.dropWhile (· != '\n') := by
    rw [List.dropWhile_append, h]
    rfl
  rw [List.cons_append, dropBlank_comment, hrest]
  refine ⟨(dropBlank_suffix _ _).trans (List.dropWhile_suffix _), ?_⟩
  intro hs
  have hall : s.dropWhile (· != '\n') = [] := by
    rw [List.dropWhile_eq_nil_iff]
    intro d hd
    exact bne_iff_ne.mpr fun heq => hs (heq ▸ hd)
  rw [hall, dropBlank_nil]

theorem dropBlank_closed {fuel : Nat} {cs : List Char} (hfuel : cs.length ≤ fuel) :
    BlanksClosed fuel cs := by
  induction fuel generalizing cs with
  | zero =>
    obtain rfl : cs = [] := List.length_eq_zero_iff.mp (Nat.le_zero.mp hfuel)
    exact .inl fun s fuel' hfuel' => dropBlank_bracket hfuel'
  | succ fuel ih =>
    cases cs with
    | nil => exact .inl fun s fuel' hfuel' => dropBlank_bracket hfuel'
    | cons c behind =>
      have hbehind : behind.length ≤ fuel := Nat.le_of_succ_le_succ hfuel
      by_cases hc : c = '#'
      · subst hc
        cases hdropped : behind.dropWhile (· != '\n') with
        | nil => exact blanksClosed_comment hdropped fuel
        | cons d ds =>
          have hlength := (List.dropWhile_sublist (l := behind) (· != '\n')).length_le
          rw [hdropped] at hlength
          refine (ih (Nat.le_trans hlength hbehind)).pass hlength
            (by rw [dropBlank_comment, hdropped]) fun s more => ?_
          rw [List.cons_append, dropBlank_comment, List.dropWhile_append, hdropped]
          rfl
      · by_cases hblank : isBlank c
        · refine (ih hbehind).pass le_rfl (by rw [dropBlank_cons fuel hc, if_pos hblank])
            fun s more => ?_
          rw [List.cons_append, dropBlank_cons more hc, if_pos hblank]
        · refine .inl fun s fuel' hfuel' => ?_
          obtain ⟨more, rfl, -⟩ := exists_succ_of_length_le hfuel'
          rw [List.cons_append, dropBlank_cons more hc, if_neg hblank, dropBlank_cons fuel hc,
            if_neg hblank]
          rfl

theorem skipBlank_apply :
    skipBlank place = some ((), if place.flags.verbose
      then { place with rest := dropBlank place.rest.length place.rest } else place) := by
  rw [skipBlank, bind_of_some flags_apply]
  split <;> rfl

theorem skipBlank_of_nil (h : place.rest = []) : skipBlank place = some ((), place) := by
  rw [skipBlank_apply]
  obtain ⟨rest, flags, groupNames⟩ := place
  obtain rfl : rest = [] := h
  split <;> rfl

theorem skipBlank_of_plain (h : place.flags.verbose = false) :
    skipBlank place = some ((), place) := by
  rw [skipBlank_apply, h]
  rfl

theorem skipBlank_of_mark {c : Char} {behind : List Char} (hcomment : c ≠ '#')
    (hblank : isBlank c = false)
    (h : place.rest = c :: behind) : skipBlank place = some ((), place) := by
  rw [skipBlank_apply]
  obtain ⟨rest, flags, groupNames⟩ := place
  obtain rfl : rest = c :: behind := h
  rw [List.length_cons, dropBlank_cons _ hcomment, hblank]
  split <;> rfl

theorem shrinks_skipBlank : Shrinks skipBlank := .of_suffix fun place a after h => by
  rw [skipBlank_apply] at h
  cases h
  split
  · exact dropBlank_suffix _ _
  · exact List.suffix_rfl

theorem keeps_skipBlank (place : Place) : Keeps skipBlank place := by
  cases hverbose : place.flags.verbose with
  | false =>
    refine .kept () place (by rw [skipBlank_apply, hverbose]; rfl) fun s => ?_
    rw [skipBlank_apply, show (place.closed s).flags = place.flags from rfl, hverbose]
    rfl
  | true =>
    have halone : skipBlank place =
        some ((), { place with rest := dropBlank place.rest.length place.rest }) := by
      rw [skipBlank_apply, hverbose]
      rfl
    have hbeside : ∀ s, skipBlank (place.closed s) =
        some ((), { place with
          rest := dropBlank (place.rest ++ ')' :: s).length (place.rest ++ ')' :: s) }) := by
      intro s
      rw [skipBlank_apply, show (place.closed s).flags = place.flags from rfl, hverbose]
      rfl
    rcases dropBlank_closed (Nat.le_refl place.rest.length) with hkept | ⟨hnil, hpast⟩
    · refine .kept () _ halone fun s => ?_
      rw [hbeside, hkept s _ (Nat.le_refl _)]
      rfl
    · refine .hidden (fun s hs => ?_) fun s a after h => ?_
      · rw [hbeside, halone, hnil, (hpast s _ (Nat.le_refl _)).2 hs]
      · rw [hbeside] at h
        cases h
        exact (hpast s _ (Nat.le_refl _)).1

theorem shrinks_pass : Shrinks pass := .bind .skip fun _ => shrinks_skipBlank

theorem pass_of_cons {c : Char} {behind : List Char} (h : place.rest = c :: behind) :
    pass place = skipBlank { place with rest := behind } := by
  rw [Scan.pass, bind_of_some skip_apply, h]
  rfl

theorem drops_pass (h : place.rest ≠ []) : Drops 1 pass place := by
  intro a after hpass
  obtain ⟨c, behind, hrest⟩ := List.exists_cons_of_ne_nil h
  rw [pass_of_cons hrest] at hpass
  have hsuffix := (shrinks_skipBlank _).suffix hpass
  rw [hrest]
  exact ⟨hsuffix.trans (List.suffix_cons c behind), Nat.succ_le_succ hsuffix.length_le⟩

theorem keeps_pass (h : place.rest ≠ []) : Keeps pass place := by
  obtain ⟨c, behind, hrest⟩ := List.exists_cons_of_ne_nil h
  exact Bracketed.skip_bind hrest (keeps_skipBlank _)

theorem exists_of_advance {c : Char} {after : Place} (h : advance place = some (c, after)) :
    ∃ behind, after.rest = c :: behind ∧ behind.length + 2 ≤ place.rest.length := by
  obtain ⟨_, middle, hpass, hpeek⟩ := bind_eq_some.mp h
  cases hrest : middle.rest with
  | nil =>
    rw [peek_of_nil hrest] at hpeek
    cases hpeek
  | cons d behind =>
    rw [peek_of_cons hrest] at hpeek
    cases hpeek
    refine ⟨behind, hrest, ?_⟩
    by_cases hplace : place.rest = []
    · have hshrinks := (shrinks_pass place).length_le hpass
      rw [hrest, hplace] at hshrinks
      cases hshrinks
    · have hdrops := (drops_pass hplace).length_le hpass
      rwa [hrest, List.length_cons] at hdrops

theorem length_lt_of_advance {c : Char} {after : Place} (h : advance place = some (c, after)) :
    after.rest.length < place.rest.length := by
  obtain ⟨behind, hrest, hlength⟩ := exists_of_advance h
  rw [hrest, List.length_cons]
  omega

theorem shrinks_advance : Shrinks advance := .bind shrinks_pass fun _ => .peek

theorem drops_advance (h : place.rest ≠ []) : Drops 1 advance place :=
  (drops_pass h).bind_left fun _ => .peek

theorem bracketed_advance (h : place.rest ≠ []) :
    Stays (fun c stop => c = ')' ∧ stop.rest = []) advance place := by
  refine (keeps_pass h).andThen ?_ fun _ => .peek
  intro _ middle _
  cases hrest : middle.rest with
  | nil =>
    refine .past (peek_of_nil hrest) fun s c after hpeek => .inr ⟨middle, ?_⟩
    have hbracket := Place.rest_closed_of_nil hrest s
    rw [peek_of_cons hbracket] at hpeek
    cases hpeek
    exact ⟨⟨rfl, hrest⟩, rfl⟩
  | cons c behind =>
    refine .kept c middle (peek_of_cons hrest) fun s => ?_
    exact peek_of_cons (Place.rest_closed_of_cons hrest s)

theorem advance_closed (h : place.rest ≠ []) :
    (∃ c after, advance place = some (c, after) ∧
      ∀ s, advance (place.closed s) = some (c, after.closed s)) ∨
    advance place = none ∧ ∀ s c after, advance (place.closed s) = some (c, after) →
      after.rest <:+ s ∨ c = ')' := by
  cases bracketed_advance h with
  | kept c after alone beside => exact .inl ⟨c, after, alone, beside⟩
  | past alone beside =>
    refine .inr ⟨alone, fun s c after hadvance => (beside s c after hadvance).imp_right ?_⟩
    rintro ⟨_, ⟨hc, -⟩, -⟩
    exact hc
  | hidden alike beside =>
    refine .inr ⟨?_, fun s c after hadvance => .inl (beside s c after hadvance)⟩
    cases hadvance : advance place with
    | none => rfl
    | some result =>
      obtain ⟨c, after⟩ := result
      obtain ⟨behind, hrest, -⟩ := exists_of_advance hadvance
      rw [Bracketed.rest_eq_nil alike beside hadvance] at hrest
      cases hrest

theorem Bracketed.advance_bind {halts : β → Place → Prop} {k : Char → Scan β}
    {k' : Char → List Char → Scan β} (h : place.rest ≠ [])
    (hnext : ∀ c after behind, advance place = some (c, after) → after.rest = c :: behind →
      Bracketed halts (k c) (k' c) after)
    (hnil : ∀ stop : Place, stop.rest = [] → ∀ s b after,
      k' ')' s (stop.closed s) = some (b, after) →
      after.rest <:+ s ∨ ∃ stop', halts b stop' ∧ after = stop'.closed s)
    (hshrinks : ∀ c s, Shrinks (k' c s)) :
    Bracketed halts (advance >>= k) (fun s => advance >>= fun c => k' c s) place := by
  refine (bracketed_advance h).bind (fun c after hadvance => ?_) ?_ hshrinks ?_
  · obtain ⟨behind, hrest, -⟩ := exists_of_advance hadvance
    exact hnext c after behind hadvance hrest
  · rintro c stop ⟨rfl, hstop⟩
    exact hnil stop hstop
  · intro c s after hadvance hnil
    obtain ⟨behind, hrest, -⟩ := exists_of_advance hadvance
    rw [hnil] at hrest
    cases hrest

/-! ### Runs of characters -/

theorem exists_eq_succ {fuel : List Char → Nat} (h : ∀ s, 0 < fuel s) :
    ∃ less : List Char → Nat, fuel = fun s => less s + 1 :=
  ⟨fun s => fuel s - 1, funext fun s => (Nat.sub_add_cancel (h s)).symm⟩

theorem takeWhile_of_nil (isWanted : Char → Bool) (fuel : Nat) (h : place.rest = []) :
    takeWhile isWanted fuel place = some ([], place) := by
  cases fuel with
  | zero => rfl
  | succ fuel =>
    rw [takeWhile, bind_of_some peek?_apply, h]
    rfl

theorem takeWhile_of_unwanted {isWanted : Char → Bool} {c : Char} {behind : List Char}
    (h : place.rest = c :: behind) (hc : isWanted c = false) (fuel : Nat) :
    takeWhile isWanted fuel place = some ([], place) := by
  cases fuel with
  | zero => rfl
  | succ fuel =>
    rw [takeWhile, bind_of_some peek?_apply, h]
    simp [hc]

theorem shrinks_takeWhile (isWanted : Char → Bool) (fuel : Nat) :
    Shrinks (takeWhile isWanted fuel) := by
  induction fuel with
  | zero => exact .pure []
  | succ fuel ih =>
    refine .bind .peek? fun c => ?_
    cases c with
    | none => exact .pure []
    | some c => exact .ite (shrinks_pass.bind fun _ => ih.bind fun _ => .pure _) (.pure [])

theorem bracketed_takeWhile {isWanted : Char → Bool} (hbracket : isWanted ')' = false) {fuel : Nat}
    {fuel' : List Char → Nat} (hfuel : place.rest.length ≤ fuel)
    (hfuel' : ∀ s, place.rest.length < fuel' s) :
    Bracketed nowhere (takeWhile isWanted fuel) (fun s => takeWhile isWanted (fuel' s)) place := by
  induction fuel generalizing place fuel' with
  | zero =>
    have hrest : place.rest = [] := List.length_eq_zero_iff.mp (Nat.le_zero.mp hfuel)
    obtain ⟨less, rfl⟩ := exists_eq_succ fun s => Nat.zero_lt_of_lt (hfuel' s)
    refine .kept [] place rfl fun s => ?_
    rw [takeWhile, bind_of_some peek?_apply, Place.closed, hrest]
    simp [hbracket]
  | succ fuel ih =>
    obtain ⟨less, rfl⟩ := exists_eq_succ fun s => Nat.zero_lt_of_lt (hfuel' s)
    refine Bracketed.peek?_bind (fun c behind hrest => ?_) fun _ => ?_
    · have hne : place.rest ≠ [] := by simp [hrest]
      by_cases hc : isWanted c
      · simp only [hc, if_true]
        refine (keeps_pass hne).bind (fun _ middle hpass => ?_)
          (fun _ _ => ?_) fun _ s middle _ hmiddle => ?_
        · have hdrops := (drops_pass hne).length_le hpass
          have hrun : Bracketed nowhere (takeWhile isWanted fuel)
              (fun s => takeWhile isWanted (less s)) middle := ih (by omega) fun s => by
            have hmore : place.rest.length < less s + 1 := hfuel' s
            omega
          exact hrun.bind (fun cs _ _ => .pure _) (fun _ _ h => h.elim) (fun _ _ => .pure _)
            fun _ _ _ _ _ => rfl
        · exact (shrinks_takeWhile isWanted _).bind fun _ => .pure _
        · rw [bind_of_some (takeWhile_of_nil _ _ hmiddle),
            bind_of_some (takeWhile_of_nil _ _ hmiddle)]
      · simp only [hc, Bool.false_eq_true, if_false]
        exact .pure []
    · simp only [hbracket, Bool.false_eq_true, if_false]
      exact .pure []

/-! ### The character behind the next one -/

/-- The first of the characters that counts, or that a comment begins with. -/
def firstBehind (verbose : Bool) (behind : List Char) : Option Char :=
  if verbose then
    match behind.dropWhile isBlank with
    | '#' :: comment => comment.find? (!isBlank ·)
    | cs => cs.head?
  else behind.head?

theorem following?_apply :
    following? place = some (firstBehind place.flags.verbose (place.rest.drop 1), place) := by
  rw [following?, bind_of_some rest_apply, bind_of_some flags_apply, firstBehind]
  split
  · cases (place.rest.drop 1).dropWhile isBlank with
    | nil => rfl
    | cons c cs =>
      by_cases hc : c = '#'
      · subst hc
        rfl
      · simp only [hc, List.cons.injEq, false_and, imp_self, implies_true]
        rfl
  · rfl

theorem firstBehind_append (verbose : Bool) (behind s : List Char) :
    firstBehind verbose (behind ++ ')' :: s) = firstBehind verbose behind ∨
      firstBehind verbose behind = none ∧ firstBehind verbose (behind ++ ')' :: s) = some ')' := by
  cases verbose with
  | false =>
    cases behind with
    | nil => exact .inr ⟨rfl, rfl⟩
    | cons c cs => exact .inl rfl
  | true =>
    simp only [firstBehind, if_true, dropWhile_append_bracket isBlank_bracket]
    cases behind.dropWhile isBlank with
    | nil => exact .inr ⟨rfl, rfl⟩
    | cons c cs =>
      by_cases hc : c = '#'
      · subst hc
        simp only [List.cons_append, List.find?_append]
        cases cs.find? (!isBlank ·) with
        | none =>
          refine .inr ⟨rfl, ?_⟩
          rw [List.find?_cons_of_pos (by rw [isBlank_bracket]; rfl)]
          rfl
        | some d => exact .inl rfl
      · left
        rw [List.cons_append]
        split
        · cases ‹_ = _›
          exact absurd rfl hc
        · split
          · cases ‹_ = _›
            exact absurd rfl hc
          · rfl

theorem shrinks_following? : Shrinks following? := .of_suffix fun place found after h => by
  rw [following?_apply] at h
  cases h
  exact List.suffix_rfl

end ObjectQuery.Pattern
