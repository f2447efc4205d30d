import ObjectQuery.Proofs.Json.Cut
import ObjectQuery.Value.Tagged

/-!
Reasoning about readings, which may fail and take names for the objects that they make. `Yields`
says what holds of all that a reading gives, `Meets` also exactly when it gives something.
-/

namespace ObjectQuery

namespace Reading

variable {α β : Type}

/-- All that a reading gives is as told. -/
def Yields (m : Reading α) (p : α → Prop) : Prop :=
  ∀ supply found, m.run supply = some found → p found.1

/-- A reading gives something exactly under a condition, and what it gives is as told. -/
def Meets (m : Reading α) (c : Prop) (p : α → Prop) : Prop :=
  ∀ supply, Offers (m.run supply) c fun found => p found.1

variable {m : Reading α} {f : α → Reading β} {c c' : Prop} {p p' : α → Prop} {q : β → Prop}

theorem run_bind (supply : InstanceId) :
    (m >>= f).run supply = (m.run supply).bind fun found => (f found.1).run found.2 := rfl

theorem bind_some (a : α) (f : α → Reading β) : (liftM (some a) >>= f : Reading β) = f a := rfl

theorem bind_variant? (tag : String) (body : Json) (f : String × Option Json → Reading α) :
    (liftM (Value.tagged tag body).variant? >>= f : Reading α) = f (tag, some body) := rfl

namespace Yields

theorem pure {a : α} (h : p a) : Yields (Pure.pure a) p := by
  intro supply found hfound
  obtain rfl := Option.some.inj hfound
  exact h

theorem failure : Yields (Alternative.failure : Reading α) p := fun _ _ h => by cases h

theorem any : Yields m fun _ => True := fun _ _ _ => trivial

theorem lift {x : Option α} (h : ∀ a, x = some a → p a) : Yields (liftM x) p := by
  intro supply found hfound
  cases x with
  | none => cases hfound
  | some a =>
    obtain rfl := Option.some.inj hfound
    exact h a rfl

theorem bind (hm : Yields m p) (hf : ∀ a, p a → Yields (f a) q) : Yields (m >>= f) q := by
  intro supply found hfound
  rw [run_bind] at hfound
  obtain ⟨middle, hmiddle, hfound⟩ := Option.bind_eq_some_iff.mp hfound
  exact hf _ (hm _ _ hmiddle) _ _ hfound

theorem mapM {items : List β} {f : β → Reading α} (hf : ∀ item ∈ items, Yields (f item) p) :
    Yields (items.mapM f) fun found => ∀ a ∈ found, p a := by
  induction items with
  | nil => exact pure (by simp)
  | cons item rest ih =>
    rw [List.forall_mem_cons] at hf
    rw [List.mapM_cons]
    refine bind hf.1 fun first hfirst => bind (ih hf.2) fun others hothers => pure ?_
    exact List.forall_mem_cons.mpr ⟨hfirst, hothers⟩

theorem withDefault {read : Json → Reading α} {otherwise : α} {field : Option Json}
    (hotherwise : p otherwise) (h : ∀ json ∈ field, Yields (read json) p) :
    Yields (Json.withDefault read otherwise field) p := by
  cases field with
  | none => exact pure hotherwise
  | some json => exact h json rfl

theorem optional {read : Json → Reading α} {field : Option Json}
    (h : ∀ json ∈ field, Yields (read json) p) :
    Yields (Json.optional read field) fun found => ∀ a ∈ found, p a := by
  unfold Json.optional Json.present?
  split
  · rename_i json hjson
    split at hjson
    · cases hjson
    · rw [map_eq_pure_bind]
      refine bind (h json hjson) fun a ha => pure ?_
      rintro _ ⟨⟩
      exact ha
  · exact pure (by simp)

end Yields

namespace Meets

theorem pure {a : α} (h : p a) : Meets (Pure.pure a) True p := fun _ => .here trivial h

theorem failure (hc : ¬c) : Meets (Alternative.failure : Reading α) c p := fun _ => .gone hc

theorem lift {x : Option α} (h : Offers x c p) : Meets (liftM x) c p := by
  intro supply
  cases x with
  | none => exact .gone fun hc => by cases h.isSome_iff.mpr hc
  | some a => exact .here (h.isSome_iff.mp rfl) (h.holds a rfl)

theorem congr (h : Meets m c p) (hc : c ↔ c') : Meets m c' p := fun supply => (h supply).congr hc

theorem imp (h : Meets m c p) (hp : ∀ a, p a → p' a) : Meets m c p' :=
  fun supply => (h supply).imp fun found => hp found.1

theorem bind (hm : Meets m c p) (hf : ∀ a, p a → Meets (f a) c' q) :
    Meets (m >>= f) (c ∧ c') q :=
  fun supply => (hm supply).bind fun found hfound => hf found.1 hfound found.2

theorem known (h : Meets m c p) : Meets m c fun a => c ∧ p a := fun supply => (h supply).known

theorem map {f : α → β} (hm : Meets m c p) (hf : ∀ a, p a → q (f a)) :
    Meets (do return f (← m)) c q := by
  have hbind : Meets (do return f (← m)) (c ∧ True) q := bind hm fun a ha => pure (hf a ha)
  rwa [and_true] at hbind

theorem mapM_map {γ : Type} {f : β → Reading γ} {g : α → β} {items : List α} {c : α → Prop}
    {r : α → γ → Prop} (h : ∀ item ∈ items, Meets (f (g item)) (c item) (r item)) :
    Meets ((items.map g).mapM f) (∀ item ∈ items, c item) (List.Forall₂ r items) := by
  induction items with
  | nil => exact (pure .nil).congr (by simp)
  | cons item rest ih =>
    rw [List.forall_mem_cons] at h
    rw [List.forall_mem_cons, List.map_cons, List.mapM_cons]
    exact bind h.1 fun first hfirst => map (ih h.2) fun others hothers =>
      List.Forall₂.cons hfirst hothers

theorem fresh : Meets Reading.fresh True fun _ => True := fun _ => .here trivial trivial

variable {write : α → Json} {read : Json → Reading β} {depth : ℕ} {c : α → Prop}
  {r : α → β → Prop}

theorem list {items : List α}
    (h : 1 < depth → ∀ item ∈ items,
      Meets (read ((write item).canonical.cut (depth - 1))) (c item) (r item)) :
    Meets (do (← ((Json.array (items.map write)).canonical.cut depth).items?).mapM read)
      (1 < depth ∧ ∀ item ∈ items, c item) (List.Forall₂ r items) := by
  refine bind (lift (Json.offers_items _ _)).known fun found ⟨hlt, hfound⟩ => ?_
  rw [hfound, List.map_map]
  exact mapM_map (h hlt)

theorem array {γ : Type} {m : Json → Reading γ} {make : List β → γ} {items : List α}
    (hread : ∀ found, m (.array found) = do return make (← found.mapM read))
    (hgone : m .unreadable = Alternative.failure)
    (h : 1 < depth → ∀ item ∈ items,
      Meets (read ((write item).canonical.cut (depth - 1))) (c item) (r item)) :
    Meets (m ((Json.array (items.map write)).canonical.cut depth))
      (1 < depth ∧ ∀ item ∈ items, c item)
      fun found => ∃ others, found = make others ∧ List.Forall₂ r items others := by
  rw [Json.canonical_array, Json.cut_array, List.map_map, List.map_map]
  rcases Nat.lt_or_ge 1 depth with hlt | hle
  · rw [Json.nested_of_lt hlt, hread]
    exact ((mapM_map (h hlt)).congr (and_iff_right hlt).symm).map
      fun others hothers => ⟨others, rfl, hothers⟩
  · rw [Json.nested_of_le hle, hgone]
    exact failure fun hc => by omega

theorem pair {m : Json → Reading (β × β)} (write : α → Json) {first second : α}
    (hread : ∀ a b, m (.array [a, b]) = do return (← read a, ← read b))
    (hgone : m .unreadable = Alternative.failure)
    (h : 1 < depth → ∀ item ∈ [first, second],
      Meets (read ((write item).canonical.cut (depth - 1))) (c item) (r item)) :
    Meets (m ((Json.array [write first, write second]).canonical.cut depth))
      (1 < depth ∧ c first ∧ c second) fun found => r first found.1 ∧ r second found.2 := by
  rw [Json.canonical_array, Json.cut_array]
  rcases Nat.lt_or_ge 1 depth with hlt | hle
  · have hitems := h hlt
    rw [List.forall_mem_cons, List.forall_mem_singleton] at hitems
    rw [Json.nested_of_lt hlt]
    refine Meets.congr ?_ (and_iff_right hlt).symm
    refine (hread _ _).symm ▸ bind hitems.1 fun a ha => map hitems.2 fun b hb => ⟨ha, hb⟩
  · rw [Json.nested_of_le hle, hgone]
    exact failure fun hc => by omega

theorem tagged {read : ℕ → Json → Reading β} {tag : String} {body : Json} {fuel : ℕ} {c : Prop}
    {p : β → Prop} (hgone : ∀ fuel, read (fuel + 1) .unreadable = Alternative.failure)
    (hfuel : ((Value.tagged tag body).canonical.cut depth).depth < fuel)
    (h : ∀ fuel depth, 0 < depth → (body.canonical.cut depth).depth < fuel →
      Meets (read (fuel + 1) (Value.tagged tag (body.canonical.cut depth)))
        (body.canonical.depth < depth ∧ c) p) :
    Meets (read fuel ((Value.tagged tag body).canonical.cut depth))
      ((Value.tagged tag body).canonical.depth < depth ∧ c) p := by
  obtain ⟨fuel, rfl⟩ : ∃ k, fuel = k + 1 := ⟨fuel - 1, by omega⟩
  rw [Value.tagged, Json.depth_canonical_object_lt_iff (by simp), List.forall_mem_singleton]
  rcases Nat.lt_or_ge 1 depth with hlt | hle
  · have hbody : (body.canonical.cut (depth - 1)).depth < fuel :=
      Json.depth_cut_of_member (by simp) (Nat.le_of_lt_succ hfuel) hlt (List.mem_singleton.mpr rfl)
    rw [Json.canonical_object, Json.cut_object, Json.nested_of_lt hlt, and_iff_right hlt]
    exact h fuel (depth - 1) (by omega) hbody
  · rw [Json.canonical_object, Json.cut_object, Json.nested_of_le hle, hgone]
    exact failure fun hc => by omega

theorem record {members : List (String × Json)} (hnodup : (members.map (·.1)).Nodup)
    (shape : List Json.Field) {k : List (Option Json) → Reading β} {fuel : ℕ} {c : Prop}
    {p : β → Prop} (hfuel : ((Json.object members).canonical.cut depth).depth ≤ fuel)
    (h : 1 < depth → (∀ member ∈ members, (member.2.canonical.cut (depth - 1)).depth < fuel) →
      Meets (k (shape.map fun field =>
        (Bindings.get? members field.name).map fun json => json.canonical.cut (depth - 1)))
        ((∀ member ∈ members, member.2.canonical.depth < depth - 1) ∧ c) p) :
    Meets (do k (← ((Json.object members).canonical.cut depth).record? shape))
      ((Json.object members).canonical.depth < depth ∧ c) p := by
  rw [Json.depth_canonical_object_lt_iff hnodup, and_assoc]
  refine bind (lift (Json.offers_record hnodup shape depth)).known fun found ⟨hlt, hfound⟩ => ?_
  rw [hfound]
  exact h hlt fun member hmember => Json.depth_cut_of_member hnodup hfuel hlt hmember

theorem optional {item : Option α} (hnull : ∀ a ∈ item, write a ≠ .null)
    (h : ∀ a ∈ item, Meets (read ((write a).canonical.cut depth)) (c a) (r a)) :
    Meets (Json.optional read (some (((item.map write).getD .null).canonical.cut depth)))
      (∀ a ∈ item, c a) (Option.Rel r item) := by
  cases item with
  | none => exact (pure .none).congr (by simp)
  | some a =>
    have hread : Meets (Json.optional read (some ((write a).canonical.cut depth))) (c a)
        (Option.Rel r (some a)) := by
      rw [Json.optional, Json.present?_cut (hnull a rfl)]
      change Meets (some <$> read _) _ _
      rw [map_eq_pure_bind]
      exact (h a rfl).map fun b hb => Option.Rel.some hb
    exact hread.congr (by simp)

end Meets

end Reading

end ObjectQuery
