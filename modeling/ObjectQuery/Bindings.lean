/-!
Finite maps from names to values as lists of pairs. A name keeps the place that it got first.
-/

namespace ObjectQuery

/-- Values by name, in the order in which the names came. -/
abbrev Bindings (α : Type) := List (String × α)

namespace Bindings

variable {α : Type}

/-- The value that a name is bound to. -/
@[grind =]
def get? : Bindings α → String → Option α
  | [], _ => none
  | (other, value) :: rest, name => if other = name then some value else get? rest name

def contains (bindings : Bindings α) (name : String) : Bool := (get? bindings name).isSome

/-- Binds a name, in its old place if it has one and at the end otherwise. -/
@[grind =]
def insert : Bindings α → String → α → Bindings α
  | [], name, value => [(name, value)]
  | (other, kept) :: rest, name, value =>
    if other = name then (name, value) :: rest else (other, kept) :: insert rest name value

/-- Binds a name unless it is bound already. -/
def insertIfNew (bindings : Bindings α) (name : String) (value : α) : Bindings α :=
  if contains bindings name then bindings else insert bindings name value

/-- The bindings without those of a name. -/
def erase (bindings : Bindings α) (name : String) : Bindings α :=
  bindings.filter (·.1 != name)

/-- Binds the names of a list in order, so that the last value of a repeated name stays. -/
def ofList (pairs : List (String × α)) : Bindings α :=
  pairs.foldl (fun bindings pair => insert bindings pair.1 pair.2) []

@[simp] theorem get?_insert_self (bindings : Bindings α) (name : String) (value : α) :
    get? (insert bindings name value) name = some value := by
  induction bindings with
  | nil => simp [insert, get?]
  | cons pair rest ih =>
    by_cases h : pair.1 = name
    · simp [insert, get?, h]
    · simp [insert, get?, h, ih]

theorem get?_insert_of_ne (bindings : Bindings α) {name other : String} (value : α)
    (h : name ≠ other) : get? (insert bindings name value) other = get? bindings other := by
  induction bindings with
  | nil => simp [insert, get?, h]
  | cons pair rest ih =>
    by_cases hp : pair.1 = name
    · simp [insert, get?, hp, h]
    · simp [insert, get?, hp, ih]

theorem eq_or_get?_of_insert {bindings : Bindings α} {name other : String} {value found : α}
    (h : get? (insert bindings name value) other = some found) :
    found = value ∨ get? bindings other = some found := by
  by_cases hname : name = other
  · rw [← hname, get?_insert_self] at h
    exact .inl (Option.some.inj h).symm
  · rw [get?_insert_of_ne bindings value hname] at h
    exact .inr h

theorem insert_insert (bindings : Bindings α) (name : String) (value other : α) :
    insert (insert bindings name value) name other = insert bindings name other := by
  induction bindings with
  | nil => simp [insert]
  | cons pair rest ih =>
    by_cases h : pair.1 = name
    · simp [insert, h]
    · simp [insert, h, ih]

theorem insert_of_get?_eq_some {bindings : Bindings α} {name : String} {value : α}
    (h : get? bindings name = some value) : insert bindings name value = bindings := by
  induction bindings with
  | nil => simp [get?] at h
  | cons pair rest ih =>
    by_cases hp : pair.1 = name
    · have hvalue : pair.2 = value := by simpa [get?, hp] using h
      simp [insert, ← hp, ← hvalue]
    · simp only [get?, hp, if_false] at h
      simp [insert, hp, ih h]

theorem get?_eq_none_iff {bindings : Bindings α} {name : String} :
    get? bindings name = none ↔ ∀ pair ∈ bindings, pair.1 ≠ name := by
  induction bindings with
  | nil => simp [get?]
  | cons pair rest ih =>
    by_cases h : pair.1 = name
    · simp [get?, h]
    · simp [get?, h, ih]

theorem mem_of_get?_eq_some {bindings : Bindings α} {name : String} {value : α}
    (h : get? bindings name = some value) : (name, value) ∈ bindings := by
  induction bindings with
  | nil => simp [get?] at h
  | cons pair rest ih =>
    by_cases hp : pair.1 = name
    · have hvalue : pair.2 = value := by simpa [get?, hp] using h
      simp [← hp, ← hvalue]
    · simp only [get?, hp, if_false] at h
      exact List.mem_cons_of_mem pair (ih h)

@[simp] theorem get?_erase_self (bindings : Bindings α) (name : String) :
    get? (erase bindings name) name = none := by
  rw [get?_eq_none_iff]
  intro pair hpair
  simpa [erase] using (List.mem_filter.mp hpair).2

theorem get?_erase_of_ne (bindings : Bindings α) {name other : String} (h : name ≠ other) :
    get? (erase bindings name) other = get? bindings other := by
  induction bindings with
  | nil => rfl
  | cons pair rest ih =>
    simp only [erase] at ih
    by_cases hp : pair.1 = name
    · simp [erase, get?, hp, h, ih]
    · simp [erase, get?, hp, ih]

theorem erase_of_get?_eq_none {bindings : Bindings α} {name : String}
    (h : get? bindings name = none) : erase bindings name = bindings := by
  rw [erase, List.filter_eq_self]
  intro pair hpair
  simpa using get?_eq_none_iff.mp h pair hpair

theorem erase_insert_of_get?_eq_none {bindings : Bindings α} {name : String}
    (value : α) (h : get? bindings name = none) :
    erase (insert bindings name value) name = bindings := by
  induction bindings with
  | nil => simp [insert, erase]
  | cons pair rest ih =>
    by_cases hp : pair.1 = name
    · simp [get?, hp] at h
    · simp only [get?, hp, if_false] at h
      have hrest := ih h
      simp only [erase] at hrest
      simp [insert, erase, hp, hrest]

end Bindings

end ObjectQuery
