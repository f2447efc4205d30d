import Mathlib
import ObjectQuery.Catalog.Memo

/-!
Ancestries as breadth-first searches over the direct supertypes. Main statement: for every catalog
and every name the search ends, and it gives the name, then everything that is above it, nearest
first and without repetition, and the root at the end; so assignability is reflexive and transitive.
-/

namespace ObjectQuery

namespace Catalog

variable {catalog : Catalog} {name other current : String}
  {queue chain found now later : List String}
  {d m n : ℕ}

/-! ### What is above a type -/

/-- A type is above another by so many steps to direct supertypes, none of which leaves the root. -/
inductive Reaches (catalog : Catalog) (name : String) : ℕ → String → Prop where
  | refl : Reaches catalog name 0 name
  | step {n : ℕ} {current above : String} (below : Reaches catalog name n current)
    (hroot : current ≠ rootType) (hsuper : above ∈ catalog.directSupertypes current) :
    Reaches catalog name (n + 1) above

theorem Reaches.trans {above : String} (h : catalog.Reaches name m other)
    (habove : catalog.Reaches other n above) : catalog.Reaches name (m + n) above := by
  induction habove with
  | refl => exact h
  | step _ hroot hsuper ih => exact .step ih hroot hsuper

/-- The least number of steps by which a type is above another. -/
def IsDistance (catalog : Catalog) (name : String) (d : ℕ) (other : String) : Prop :=
  catalog.Reaches name d other ∧ ∀ n, catalog.Reaches name n other → d ≤ n

/-! ### The walk without a bound -/

/-- From a queue and the types visited before, a walk comes to all types visited in the end. It ends
with the queue; it skips the root and what was visited, and otherwise puts the supertypes last. -/
inductive Walks (catalog : Catalog) : List String → List String → List String → Prop where
  | done (chain : List String) : Walks catalog [] chain chain
  | skip {current : String} {queue chain found : List String}
    (hseen : current = rootType ∨ current ∈ chain) (rest : Walks catalog queue chain found) :
    Walks catalog (current :: queue) chain found
  | visit {current : String} {queue chain found : List String} (hroot : current ≠ rootType)
    (hnew : current ∉ chain)
    (rest : Walks catalog (queue ++ catalog.directSupertypes current) (chain ++ [current]) found) :
    Walks catalog (current :: queue) chain found

theorem Walks.prefix (h : catalog.Walks queue chain found) : chain <+: found := by
  induction h with
  | done chain => exact List.prefix_rfl
  | skip _ _ ih => exact ih
  | visit _ _ _ ih => exact (List.prefix_append _ _).trans ih

theorem Walks.unique {found' : List String} (h : catalog.Walks queue chain found)
    (h' : catalog.Walks queue chain found') : found = found' := by
  induction h with
  | done chain =>
    cases h'
    rfl
  | skip hseen _ ih =>
    cases h' with
    | skip _ rest' => exact ih rest'
    | visit hroot hnew _ => exact (hseen.elim hroot hnew).elim
  | visit hroot hnew _ ih =>
    cases h' with
    | skip hseen _ => exact (hseen.elim hroot hnew).elim
    | visit _ _ rest' => exact ih rest'

theorem Walks.congr_on {catalog' : Catalog} {p : String → Prop}
    (hsupers : ∀ name, p name → catalog.directSupertypes name = catalog'.directSupertypes name)
    (habove : ∀ name, p name → ∀ above ∈ catalog.directSupertypes name, p above)
    (h : catalog.Walks queue chain found) (hqueue : ∀ name ∈ queue, p name) :
    catalog'.Walks queue chain found := by
  induction h with
  | done chain => exact .done chain
  | skip hseen _ ih => exact .skip hseen (ih (List.forall_mem_cons.mp hqueue).2)
  | visit hroot hnew _ ih =>
    obtain ⟨hcurrent, hqueue⟩ := List.forall_mem_cons.mp hqueue
    refine .visit hroot hnew (hsupers _ hcurrent ▸ ih ?_)
    exact List.forall_mem_append.mpr ⟨hqueue, habove _ hcurrent⟩

theorem Walks.congr {catalog' : Catalog}
    (hsupers : ∀ name, catalog.directSupertypes name = catalog'.directSupertypes name)
    (h : catalog.Walks queue chain found) : catalog'.Walks queue chain found :=
  h.congr_on (fun name (_ : True) => hsupers name) (fun _ _ _ _ => trivial) fun _ _ => trivial

/-! ### The bound -/

/-- Names with the number of visits that are due at most once they are visited themselves. -/
abbrev Dues := List (String × ℕ)

namespace Dues

variable {dues : Dues} {count : ℕ}

/-- The visits that are due for the names not visited yet. -/
def pending (dues : Dues) (chain : List String) : ℕ :=
  ((dues.filter fun due => due.1 ∉ chain).map (·.2)).sum

theorem pending_append_le (dues : Dues) (chain : List String) (name : String) :
    dues.pending (chain ++ [name]) ≤ dues.pending chain := by
  refine List.Sublist.sum_le_sum (List.Sublist.map _ ?_) fun _ _ => Nat.zero_le _
  refine List.monotone_filter_right dues fun due hdue => ?_
  simp only [decide_eq_true_eq, List.mem_append, not_or] at hdue ⊢
  exact hdue.1

theorem pending_append_add_le (hdue : (name, count) ∈ dues) (hnew : name ∉ chain) :
    dues.pending (chain ++ [name]) + count ≤ dues.pending chain := by
  induction dues with
  | nil => cases hdue
  | cons first rest ih =>
    have hcons : ∀ chain : List String, Dues.pending (first :: rest) chain =
        (if first.1 ∈ chain then 0 else first.2) + Dues.pending rest chain := by
      intro chain
      rw [pending, List.filter_cons]
      by_cases hmem : first.1 ∈ chain <;> simp [hmem, pending]
    rw [hcons, hcons]
    rcases List.mem_cons.mp hdue with rfl | hdue
    · have := pending_append_le rest chain name
      simp only [List.mem_append, List.mem_singleton, or_true, if_true, if_neg hnew]
      omega
    · have := ih hdue
      by_cases hmem : first.1 ∈ chain
      · simp only [List.mem_append, hmem, true_or, if_true]
        omega
      · have hle : (if first.1 ∈ chain ++ [name] then 0 else first.2) ≤ first.2 := by
          split <;> omega
        rw [if_neg hmem]
        omega

/-- Every name of the list is the root or has its direct supertypes due, and these are the root or
on the list. -/
structure Cover (catalog : Catalog) (dues : Dues) : Prop where
  due : ∀ name ∈ dues.map (·.1), name ≠ rootType →
    ∃ count, (name, count) ∈ dues ∧ (catalog.directSupertypes name).length ≤ count
  above : ∀ name ∈ dues.map (·.1), name ≠ rootType →
    ∀ other ∈ catalog.directSupertypes name, other = rootType ∨ other ∈ dues.map (·.1)

theorem Cover.walks (hcover : Cover catalog dues) {fuel : ℕ}
    (hqueue : ∀ name ∈ queue, name = rootType ∨ name ∈ dues.map (·.1))
    (hfuel : queue.length + dues.pending chain ≤ fuel) :
    catalog.Walks queue chain (catalog.walk fuel queue chain) := by
  induction fuel generalizing queue chain with
  | zero =>
    obtain rfl : queue = [] := List.eq_nil_of_length_eq_zero (by omega)
    exact .done chain
  | succ fuel ih =>
    cases queue with
    | nil => exact .done chain
    | cons current queue =>
      rw [List.forall_mem_cons] at hqueue
      obtain ⟨hcurrent, hqueue⟩ := hqueue
      rw [List.length_cons] at hfuel
      rw [walk]
      by_cases hseen : current = rootType ∨ current ∈ chain
      · rw [if_pos (by simpa using hseen)]
        exact .skip hseen (ih hqueue (by omega))
      · rw [if_neg (by simpa using hseen)]
        obtain ⟨hroot, hnew⟩ := not_or.mp hseen
        have hmem := hcurrent.resolve_left hroot
        obtain ⟨count, hdue, hcount⟩ := hcover.due current hmem hroot
        have hpaid := pending_append_add_le hdue hnew
        refine .visit hroot hnew (ih ?_ ?_)
        · rw [List.forall_mem_append]
          exact ⟨hqueue, hcover.above current hmem hroot⟩
        · rw [List.length_append]
          omega

end Dues

/-- The built-in types with their direct supertypes. -/
def builtinTypes : List (String × List String) :=
  DataType.all.map (fun type => (type.name, type.supertypes)) ++ abstractTypes

theorem mem_builtinTypes {supertypes : List String}
    (h : builtinSupertypes? name = some supertypes) :
    (name, supertypes) ∈ builtinTypes := by
  rw [builtinSupertypes?] at h
  split at h
  · rename_i type htype
    obtain rfl := Option.some.inj h
    have hname := List.find?_some htype
    rw [beq_iff_eq] at hname
    exact List.mem_append_left _
      (List.mem_map.mpr ⟨type, List.mem_of_find?_eq_some htype, by rw [hname]⟩)
  · obtain ⟨before, after, heq, -⟩ := List.lookup_eq_some_iff.mp h
    exact List.mem_append_right _ (heq ▸ List.mem_append_right before List.mem_cons_self)

theorem builtinTypes_length : ∀ type ∈ builtinTypes, type.1 ≠ rootType → 1 ≤ type.2.length := by
  decide

theorem builtinTypes_closed : ∀ type ∈ builtinTypes, ∀ above ∈ type.2,
    above = rootType ∨ above ∈ builtinTypes.map (·.1) := by
  decide

/-- The names that a walk can meet: the one that it starts with, the built-in types, the user types
and the supertypes that these declare. -/
def dues (catalog : Catalog) (name : String) : Dues :=
  (name, 1) :: builtinTypes.map (fun type => (type.1, type.2.length)) ++
    catalog.classes.flatMap fun entry =>
      (entry.1, entry.2.supertypes.length + 1) ::
        entry.2.supertypes.map fun above => (catalog.resolveOrSelf above, 1)

theorem mem_dues_iff {due : String × ℕ} : due ∈ catalog.dues name ↔ due = (name, 1) ∨
    (∃ type ∈ builtinTypes, due = (type.1, type.2.length)) ∨
    ∃ key c, (key, c) ∈ catalog.classes ∧ (due = (key, c.supertypes.length + 1) ∨
      ∃ above ∈ c.supertypes, due = (catalog.resolveOrSelf above, 1)) := by
  simp only [dues, List.cons_append, List.mem_cons, List.mem_append, List.mem_map,
    List.mem_flatMap, Prod.exists, eq_comm]

theorem mem_directSupertypes {above : String} (h : above ∈ catalog.directSupertypes current) :
    above = rootType ∨
      (∃ c, (current, c) ∈ catalog.classes ∧ ∃ declared ∈ c.supertypes,
        above = catalog.resolveOrSelf declared) ∨
      ∃ supertypes, (current, supertypes) ∈ builtinTypes ∧ above ∈ supertypes := by
  rw [directSupertypes] at h
  cases hclass : catalog.classes.get? current with
  | some c =>
    simp only [hclass] at h
    split at h
    · exact .inl (List.mem_singleton.mp h)
    · obtain ⟨declared, hdeclared, rfl⟩ := List.mem_map.mp h
      exact .inr (.inl ⟨c, Bindings.mem_of_get?_eq_some hclass, declared, hdeclared, rfl⟩)
  | none =>
    simp only [hclass] at h
    cases hbuiltin : builtinSupertypes? current with
    | some supertypes =>
      rw [hbuiltin] at h
      exact .inr (.inr ⟨supertypes, mem_builtinTypes hbuiltin, h⟩)
    | none =>
      rw [hbuiltin] at h
      exact .inl (List.mem_singleton.mp h)

theorem length_directSupertypes_le (catalog : Catalog) (current : String) :
    (∃ c, (current, c) ∈ catalog.classes ∧
      (catalog.directSupertypes current).length ≤ c.supertypes.length + 1) ∨
    (∃ supertypes, (current, supertypes) ∈ builtinTypes ∧
      (catalog.directSupertypes current).length = supertypes.length) ∨
    (catalog.directSupertypes current).length = 1 := by
  rw [directSupertypes]
  cases hclass : catalog.classes.get? current with
  | some c =>
    refine .inl ⟨c, Bindings.mem_of_get?_eq_some hclass, ?_⟩
    simp only
    split <;> simp
  | none =>
    cases hbuiltin : builtinSupertypes? current with
    | some supertypes => exact .inr (.inl ⟨supertypes, mem_builtinTypes hbuiltin, rfl⟩)
    | none => exact .inr (.inr rfl)

theorem cover_dues (catalog : Catalog) (name : String) :
    Dues.Cover catalog (catalog.dues name) := by
  constructor
  · intro current hcurrent hroot
    rcases catalog.length_directSupertypes_le current with ⟨c, hc, hle⟩ |
      ⟨supertypes, hmem, heq⟩ | hone
    · exact ⟨_, mem_dues_iff.mpr (.inr (.inr ⟨current, c, hc, .inl rfl⟩)), hle⟩
    · exact ⟨_, mem_dues_iff.mpr (.inr (.inl ⟨_, hmem, rfl⟩)), heq.le⟩
    · obtain ⟨⟨_, count⟩, hdue, rfl⟩ := List.mem_map.mp hcurrent
      refine ⟨count, hdue, hone.trans_le ?_⟩
      rcases mem_dues_iff.mp hdue with heq | ⟨type, htype, heq⟩ | ⟨key, c, -, heq | ⟨above, -, heq⟩⟩
      all_goals obtain ⟨rfl, rfl⟩ := Prod.mk.inj heq
      · exact le_rfl
      · exact builtinTypes_length type htype hroot
      · exact Nat.le_add_left 1 _
      · exact le_rfl
  · intro current _ _ above habove
    rcases mem_directSupertypes habove with hroot | ⟨c, hc, declared, hdeclared, rfl⟩ |
        ⟨supertypes, hmem, habove⟩
    · exact .inl hroot
    · exact .inr (List.mem_map.mpr ⟨(_, 1),
        mem_dues_iff.mpr (.inr (.inr ⟨current, c, hc, .inr ⟨declared, hdeclared, rfl⟩⟩)), rfl⟩)
    · refine (builtinTypes_closed _ hmem above habove).imp_right fun hbuiltin => ?_
      obtain ⟨type, htype, rfl⟩ := List.mem_map.mp hbuiltin
      exact List.mem_map.mpr ⟨_, mem_dues_iff.mpr (.inr (.inl ⟨type, htype, rfl⟩)), rfl⟩

theorem foldl_add_eq_sum {α : Type} (f : α → ℕ) (items : List α) (start : ℕ) :
    items.foldl (fun n item => n + f item) start = start + (items.map f).sum := by
  induction items generalizing start with
  | nil => simp
  | cons item rest ih => rw [List.foldl_cons, ih, List.map_cons, List.sum_cons, add_assoc]

theorem sum_dues_le (catalog : Catalog) (name : String) :
    ((catalog.dues name).map (·.2)).sum ≤
      63 + (catalog.classes.map fun entry => 2 * (entry.2.supertypes.length + 1)).sum := by
  have hbuiltin : ((builtinTypes.map fun type => (type.1, type.2.length)).map (·.2)).sum ≤ 62 := by
    decide
  have hclasses : ((catalog.classes.flatMap fun entry => (entry.1, entry.2.supertypes.length + 1) ::
      entry.2.supertypes.map fun above => (catalog.resolveOrSelf above, 1)).map (·.2)).sum ≤
        (catalog.classes.map fun entry => 2 * (entry.2.supertypes.length + 1)).sum := by
    rw [List.map_flatMap, List.flatMap_def, List.sum_flatten, List.map_map]
    refine List.sum_le_sum fun entry _ => ?_
    simp only [Function.comp_apply, List.map_cons, List.sum_cons, List.map_map, Function.comp_def,
      List.map_const', List.sum_replicate, smul_eq_mul]
    omega
  rw [dues, List.cons_append, List.map_cons, List.sum_cons, List.map_append, List.sum_append]
  omega

theorem pending_dues_le (catalog : Catalog) (name : String) :
    [name].length + (catalog.dues name).pending [] ≤ catalog.walkBound := by
  have hall : (catalog.dues name).pending [] = ((catalog.dues name).map (·.2)).sum := by
    simp [Dues.pending]
  have hbound : catalog.walkBound =
      64 + (catalog.classes.map fun entry => 2 * (entry.2.supertypes.length + 1)).sum :=
    foldl_add_eq_sum _ _ _
  have hsum := catalog.sum_dues_le name
  rw [hall, hbound, List.length_singleton]
  omega

theorem walks_ancestry (catalog : Catalog) (name : String) :
    ∃ chain, catalog.Walks [name] [] chain ∧ catalog.ancestry name = chain ++ [rootType] := by
  refine ⟨_, (cover_dues catalog name).walks ?_ (pending_dues_le catalog name), rfl⟩
  simp [dues]

/-! ### Levels -/

/-- What holds of a walk within a level: the types of this level that are still queued, those of the
next one, and the types visited so far. -/
structure Frontier (catalog : Catalog) (name : String) (d : ℕ) (now later chain : List String) :
    Prop where
  queued : ∀ other ∈ now, catalog.Reaches name d other
  queuedNext : ∀ other ∈ later, catalog.Reaches name (d + 1) other
  visited : ∀ other ∈ chain, other ≠ rootType ∧ ∃ n ≤ d, catalog.IsDistance name n other
  /-- Nothing of an earlier level is left. -/
  earlier : ∀ n < d, ∀ other, catalog.Reaches name n other → other ≠ rootType → other ∈ chain
  level : ∀ other, catalog.Reaches name d other → other ≠ rootType → other ∈ chain ∨ other ∈ now
  closed : ∀ other ∈ chain, ∀ above ∈ catalog.directSupertypes other,
    above = rootType ∨ above ∈ chain ∨ above ∈ now ∨ above ∈ later
  nodup : chain.Nodup
  nearestFirst : chain.Pairwise fun a b =>
    ∃ m n, catalog.IsDistance name m a ∧ catalog.IsDistance name n b ∧ m ≤ n

namespace Frontier

theorem start (catalog : Catalog) (name : String) : catalog.Frontier name 0 [name] [] [] where
  queued other hother := List.mem_singleton.mp hother ▸ .refl
  queuedNext other hother := by cases hother
  visited other hother := by cases hother
  earlier n hn := by omega
  level other hother _ := by
    cases hother
    exact .inr List.mem_cons_self
  closed other hother := by cases hother
  nodup := List.nodup_nil
  nearestFirst := List.Pairwise.nil

theorem next (h : catalog.Frontier name d [] later chain) :
    catalog.Frontier name (d + 1) later [] chain where
  queued := h.queuedNext
  queuedNext other hother := by cases hother
  visited other hother := by
    obtain ⟨hroot, n, hn, hdistance⟩ := h.visited other hother
    exact ⟨hroot, n, by omega, hdistance⟩
  earlier n hn other hreaches hroot := by
    rcases Nat.lt_succ_iff_lt_or_eq.mp hn with hlt | rfl
    · exact h.earlier n hlt other hreaches hroot
    · exact (h.level other hreaches hroot).resolve_right List.not_mem_nil
  level other hreaches hroot := by
    obtain _ | ⟨hbelow, hcurrent, hsuper⟩ := hreaches
    have hvisited := (h.level _ hbelow hcurrent).resolve_right List.not_mem_nil
    rcases h.closed _ hvisited other hsuper with heq | hmem | hmem | hmem
    · exact absurd heq hroot
    · exact .inl hmem
    · cases hmem
    · exact .inr hmem
  closed other hother above habove := by
    rcases h.closed other hother above habove with heq | hmem | hmem | hmem
    · exact .inl heq
    · exact .inr (.inl hmem)
    · cases hmem
    · exact .inr (.inr (.inl hmem))
  nodup := h.nodup
  nearestFirst := h.nearestFirst

theorem skip (h : catalog.Frontier name d (current :: now) later chain)
    (hseen : current = rootType ∨ current ∈ chain) : catalog.Frontier name d now later chain where
  queued other hother := h.queued other (List.mem_cons_of_mem _ hother)
  queuedNext := h.queuedNext
  visited := h.visited
  earlier := h.earlier
  level other hreaches hroot := by
    rcases h.level other hreaches hroot with hmem | hmem
    · exact .inl hmem
    · rcases List.mem_cons.mp hmem with rfl | hmem
      · exact .inl (hseen.resolve_left hroot)
      · exact .inr hmem
  closed other hother above habove := by
    rcases h.closed other hother above habove with heq | hmem | hmem | hmem
    · exact .inl heq
    · exact .inr (.inl hmem)
    · rcases List.mem_cons.mp hmem with rfl | hmem
      · exact hseen.imp_right .inl
      · exact .inr (.inr (.inl hmem))
    · exact .inr (.inr (.inr hmem))
  nodup := h.nodup
  nearestFirst := h.nearestFirst

theorem isDistance (h : catalog.Frontier name d (current :: now) later chain)
    (hroot : current ≠ rootType) (hnew : current ∉ chain) : catalog.IsDistance name d current := by
  refine ⟨h.queued current List.mem_cons_self, fun n hn => ?_⟩
  by_contra hlt
  exact hnew (h.earlier n (by omega) current hn hroot)

theorem visit (h : catalog.Frontier name d (current :: now) later chain)
    (hroot : current ≠ rootType) (hnew : current ∉ chain) :
    catalog.Frontier name d now (later ++ catalog.directSupertypes current)
    (chain ++ [current]) where
  queued other hother := h.queued other (List.mem_cons_of_mem _ hother)
  queuedNext := by
    rw [List.forall_mem_append]
    exact ⟨h.queuedNext, fun other hother =>
      .step (h.queued current List.mem_cons_self) hroot hother⟩
  visited := by
    rw [List.forall_mem_append, List.forall_mem_singleton]
    exact ⟨h.visited, hroot, d, le_rfl, h.isDistance hroot hnew⟩
  earlier n hn other hreaches hother :=
    List.mem_append_left _ (h.earlier n hn other hreaches hother)
  level other hreaches hother := by
    rcases h.level other hreaches hother with hmem | hmem
    · exact .inl (List.mem_append_left _ hmem)
    · rcases List.mem_cons.mp hmem with rfl | hmem
      · exact .inl (List.mem_append_right _ List.mem_cons_self)
      · exact .inr hmem
  closed := by
    rw [List.forall_mem_append, List.forall_mem_singleton]
    refine ⟨fun other hother above habove => ?_, fun above habove => ?_⟩
    · rcases h.closed other hother above habove with heq | hmem | hmem | hmem
      · exact .inl heq
      · exact .inr (.inl (List.mem_append_left _ hmem))
      · rcases List.mem_cons.mp hmem with rfl | hmem
        · exact .inr (.inl (List.mem_append_right _ List.mem_cons_self))
        · exact .inr (.inr (.inl hmem))
      · exact .inr (.inr (.inr (List.mem_append_left _ hmem)))
    · exact .inr (.inr (.inr (List.mem_append_right _ habove)))
  nodup := List.nodup_append.mpr ⟨h.nodup, List.nodup_singleton _, fun a ha b hb hab =>
    hnew (List.mem_singleton.mp hb ▸ hab ▸ ha)⟩
  nearestFirst := by
    refine List.pairwise_append.mpr
      ⟨h.nearestFirst, List.pairwise_singleton _ _, fun a ha b hb => ?_⟩
    obtain rfl := List.mem_singleton.mp hb
    obtain ⟨-, m, hm, hdistance⟩ := h.visited a ha
    exact ⟨m, d, hdistance, h.isDistance hroot hnew, hm⟩

theorem exists_head (h : catalog.Frontier name d now later chain)
    (hqueue : current :: queue = now ++ later) :
    ∃ d now later, queue = now ++ later ∧ catalog.Frontier name d (current :: now) later chain := by
  cases now with
  | nil =>
    obtain rfl : current :: queue = later := hqueue
    exact ⟨d + 1, queue, [], (List.append_nil queue).symm, h.next⟩
  | cons first now =>
    obtain ⟨rfl, htail⟩ := List.cons.inj hqueue
    exact ⟨d, now, later, htail, h⟩

theorem of_walks (hwalks : catalog.Walks queue chain found) {d : ℕ} {now later : List String}
    (hqueue : queue = now ++ later) (h : catalog.Frontier name d now later chain) :
    ∃ d, catalog.Frontier name d [] [] found := by
  induction hwalks generalizing d now later with
  | done chain =>
    obtain ⟨rfl, rfl⟩ := List.append_eq_nil_iff.mp hqueue.symm
    exact ⟨d, h⟩
  | skip hseen _ ih =>
    obtain ⟨d, now, later, hqueue, h⟩ := h.exists_head hqueue
    exact ih hqueue (h.skip hseen)
  | visit hroot hnew _ ih =>
    obtain ⟨d, now, later, rfl, h⟩ := h.exists_head hqueue
    exact ih (List.append_assoc _ _ _) (h.visit hroot hnew)

theorem mem_iff (h : catalog.Frontier name d [] [] chain) :
    other ∈ chain ↔ other ≠ rootType ∧ ∃ n, catalog.Reaches name n other := by
  constructor
  · intro hmem
    obtain ⟨hroot, n, -, hdistance⟩ := h.visited other hmem
    exact ⟨hroot, n, hdistance.1⟩
  · rintro ⟨hroot, n, hreaches⟩
    induction hreaches with
    | refl =>
      rcases Nat.eq_zero_or_pos d with rfl | hpos
      · exact (h.level name .refl hroot).resolve_right List.not_mem_nil
      · exact h.earlier 0 hpos name .refl hroot
    | step _ hcurrent hsuper ih =>
      rcases h.closed _ (ih hcurrent) _ hsuper with heq | hmem | hmem | hmem
      · exact absurd heq hroot
      · exact hmem
      · cases hmem
      · cases hmem

end Frontier

/-! ### Ancestries -/

/-- A breadth-first search for all that is above a type, up to the root. -/
structure BreadthFirst (catalog : Catalog) (name : String) (chain : List String) : Prop where
  walks : catalog.Walks [name] [] chain
  head : (chain ++ [rootType]).head? = some name
  nodup : (chain ++ [rootType]).Nodup
  mem_iff : ∀ other, other ∈ chain ++ [rootType] ↔
    other = rootType ∨ ∃ n, catalog.Reaches name n other
  nearestFirst : chain.Pairwise fun a b =>
    ∃ m n, catalog.IsDistance name m a ∧ catalog.IsDistance name n b ∧ m ≤ n

theorem Walks.breadthFirst (h : catalog.Walks [name] [] chain) :
    catalog.BreadthFirst name chain := by
  obtain ⟨d, hfrontier⟩ := Frontier.of_walks h rfl (.start catalog name)
  refine ⟨h, ?_, ?_, fun other => ?_, hfrontier.nearestFirst⟩
  · cases h with
    | skip hseen rest =>
      obtain rfl := hseen.resolve_right List.not_mem_nil
      cases rest
      rfl
    | visit _ _ rest =>
      obtain ⟨more, rfl⟩ := rest.prefix
      rfl
  · refine List.nodup_append.mpr ⟨hfrontier.nodup, List.nodup_singleton _, fun a ha b hb => ?_⟩
    obtain rfl := List.mem_singleton.mp hb
    exact (hfrontier.mem_iff.mp ha).1
  · rw [List.mem_append, List.mem_singleton, hfrontier.mem_iff]
    by_cases hroot : other = rootType <;> simp [hroot]

theorem exists_breadthFirst (catalog : Catalog) (name : String) :
    ∃ chain, catalog.BreadthFirst name chain ∧ catalog.ancestry name = chain ++ [rootType] := by
  obtain ⟨chain, hwalks, hancestry⟩ := catalog.walks_ancestry name
  exact ⟨chain, hwalks.breadthFirst, hancestry⟩

theorem mem_ancestry_iff : other ∈ catalog.ancestry name ↔
    other = rootType ∨ ∃ n, catalog.Reaches name n other := by
  obtain ⟨chain, hsearch, hancestry⟩ := catalog.exists_breadthFirst name
  rw [hancestry]
  exact hsearch.mem_iff other

theorem mem_ancestry_trans {above : String} (hother : other ∈ catalog.ancestry name)
    (habove : above ∈ catalog.ancestry other) : above ∈ catalog.ancestry name := by
  rw [mem_ancestry_iff] at hother habove ⊢
  rcases habove with hroot | ⟨n, habove⟩
  · exact .inl hroot
  · rcases hother with rfl | ⟨m, hother⟩
    · -- Nothing leaves the root.
      refine .inl ?_
      induction habove with
      | refl => rfl
      | step _ hroot _ ih => exact absurd ih hroot
    · exact .inr ⟨m + n, hother.trans habove⟩

theorem isAssignable_iff {target : String} (htarget : catalog.resolve? target = some target) :
    catalog.isAssignable name target ↔ target ∈ catalog.ancestry name := by
  rw [isAssignable, resolveOrSelf, htarget, Option.getD_some, List.contains_iff_mem]

/-- For every name a catalog that remembers no ancestry finds one by a search that ends: breadth
first, over all that is above the name, with the root last. So names that stand for themselves are
assignable to themselves, and to what their supertypes are assignable to. -/
theorem ancestry_breadthFirst (catalog : Catalog) :
    (∀ name, ∃ chain, catalog.BreadthFirst name chain ∧
      ((MemoCatalog.ancestry name).run ⟨catalog, []⟩).1 = chain ++ [rootType]) ∧
    (∀ name, catalog.resolve? name = some name → catalog.isAssignable name name) ∧
    ∀ name other above, catalog.resolve? name = some name → catalog.resolve? other = some other →
      catalog.resolve? above = some above → catalog.isAssignable name other →
        catalog.isAssignable other above → catalog.isAssignable name above := by
  refine ⟨catalog.exists_breadthFirst, fun name hname => ?_, ?_⟩
  · rw [isAssignable_iff hname, mem_ancestry_iff]
    exact .inr ⟨0, .refl⟩
  · intro name other above _ hother habove hfirst hsecond
    rw [isAssignable_iff hother] at hfirst
    rw [isAssignable_iff habove] at hsecond ⊢
    exact mem_ancestry_trans hfirst hsecond

/-- A type with two supertypes below one more, which has the first type as its own supertype. -/
def ring : Catalog where
  classes := [("a.First", ⟨"a.First", some "Left", ["Right"], none, []⟩),
    ("a.Left", ⟨"a.Left", some "Last", [], none, []⟩),
    ("a.Right", ⟨"a.Right", some "Last", [], none, []⟩),
    ("a.Last", ⟨"a.Last", some "First", [], none, []⟩)]
  imports := [("First", "a.First"), ("Left", "a.Left"), ("Right", "a.Right"), ("Last", "a.Last")]

theorem ancestry_breadthFirst_ring :
    ring.ancestry "a.First" = ["a.First", "a.Left", "a.Right", "a.Last", "Object"] ∧
    (∃ chain, ring.BreadthFirst "a.First" chain ∧
      ((MemoCatalog.ancestry "a.First").run ⟨ring, []⟩).1 = chain ++ [rootType]) ∧
    ring.resolve? "a.First" = some "a.First" ∧ ring.isAssignable "a.First" "a.First" ∧
    ring.resolve? "a.Left" = some "a.Left" ∧ ring.resolve? "a.Last" = some "a.Last" ∧
    ring.isAssignable "a.First" "a.Left" ∧ ring.isAssignable "a.Left" "a.Last" ∧
    ring.isAssignable "a.First" "a.Last" := by
  obtain ⟨hsearch, hself, htrans⟩ := ancestry_breadthFirst ring
  have hfirst : ring.resolve? "a.First" = some "a.First" := by decide +kernel
  have hleft : ring.resolve? "a.Left" = some "a.Left" := by decide +kernel
  have hlast : ring.resolve? "a.Last" = some "a.Last" := by decide +kernel
  have hbelow : ring.isAssignable "a.First" "a.Left" := by decide +kernel
  have habove : ring.isAssignable "a.Left" "a.Last" := by decide +kernel
  exact ⟨by decide +kernel, hsearch "a.First", hfirst, hself "a.First" hfirst, hleft, hlast,
    hbelow, habove, htrans "a.First" "a.Left" "a.Last" hfirst hleft hlast hbelow habove⟩

end Catalog

end ObjectQuery
