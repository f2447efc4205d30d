import ObjectQuery.Json.Reader
import ObjectQuery.Proofs.Json.Shape

/-!
What reading of JSON text gives. Main statement: every number of a tree that was read is a finite
one, or an integer of 64 bits with or without a sign.
-/

namespace ObjectQuery

/-- An integer of 64 bits, with or without a sign, or a finite number. -/
def JsonNumber.InRange : JsonNumber → Prop
  | .integer n => Int64.minValue.toInt ≤ n ∧ n < UInt64.size
  | .double x => x.isFinite
  | .single x => x.isFinite

theorem JsonNumber.InRange.widened {n : JsonNumber} (h : n.InRange) : n.widened.InRange := by
  cases n with
  | single x => exact Binary.isFinite_convert BinaryFormat.single_widens_double h
  | _ => exact h

namespace Json

/-- All numbers of a tree are in range. -/
def NumbersInRange (json : Json) : Prop := json.All fun node => ∀ n, node = .number n → n.InRange

theorem numbersInRange_of_leaf {json : Json} (hleaf : json.children = [])
    (hnumber : ∀ n, json ≠ .number n) : json.NumbersInRange :=
  ⟨fun n h => absurd h (hnumber n), fun child hchild => by rw [hleaf] at hchild; cases hchild⟩

theorem numbersInRange_ofDouble (x : Double) : (ofDouble x).NumbersInRange := by
  rw [ofDouble]
  split
  · refine ⟨fun n h => ?_, fun child hchild => by cases hchild⟩
    obtain rfl := number.inj h
    assumption
  · exact numbersInRange_of_leaf rfl fun n => by simp

theorem numbersInRange_ofInt {n : Int} (hlow : Int64.minValue.toInt ≤ n) (hhigh : n < UInt64.size) :
    (ofInt n).NumbersInRange := by
  refine ⟨fun m h => ?_, fun child hchild => by cases hchild⟩
  obtain rfl := number.inj h
  exact ⟨hlow, hhigh⟩

theorem takeFitting_lt {count : Nat} (digits : List Nat) (h : count < UInt64.size) :
    (takeFitting count digits).1 < UInt64.size := by
  induction digits generalizing count with
  | nil => exact h
  | cons digit rest ih =>
    rw [takeFitting]
    split
    · exact ih ‹_›
    · exact h

theorem Numeral.numbersInRange_toJson (n : Numeral) : n.toJson.NumbersInRange := by
  have hcount := takeFitting_lt n.whole (Nat.zero_lt_of_lt (by decide : 0 < UInt64.size))
  rw [Numeral.toJson]
  generalize takeFitting 0 n.whole = found at hcount
  obtain ⟨count, surplus⟩ := found
  simp only at hcount
  simp only
  split
  · split
    · exact numbersInRange_ofInt (by have : Int64.minValue.toInt ≤ 0 := by decide
                                     omega) (by omega)
    · split
      · rename_i hle
        have hmin : (Int64.minValue.toInt.natAbs : Int) = -Int64.minValue.toInt := by decide
        simp only [Bool.and_eq_true, decide_eq_true_eq] at hle
        exact numbersInRange_ofInt (by omega) (by omega)
      · exact numbersInRange_ofDouble _
  · split
    · exact numbersInRange_ofDouble _
    · exact numbersInRange_of_leaf rfl fun n => by simp

theorem numbersInRange_nested {json : Json} (h : json.NumbersInRange) (depth : Nat) :
    (nested depth json).NumbersInRange := by
  rw [nested]
  split
  · exact numbersInRange_of_leaf rfl fun n => by simp
  · exact h

theorem numbersInRange_array {items : List Json} (h : ∀ item ∈ items, item.NumbersInRange) :
    (Json.array items).NumbersInRange :=
  all_array.mpr ⟨fun n hn => (by cases hn), h⟩

theorem numbersInRange_object {members : List (String × Json)}
    (h : ∀ member ∈ members, member.2.NumbersInRange) : (Json.object members).NumbersInRange :=
  all_object.mpr ⟨fun n hn => (by cases hn), h⟩

theorem numbersInRange_ofMembers {members : List (Option String × Json)}
    (h : ∀ member ∈ members, member.2.NumbersInRange) : (ofMembers members).NumbersInRange := by
  rw [ofMembers]
  split
  · rename_i named hnamed
    refine numbersInRange_object (forall_of_mapM hnamed fun member hmember found hfound => ?_)
    obtain ⟨name, -, rfl⟩ := Option.map_eq_some_iff.mp hfound
    exact h member hmember
  · exact numbersInRange_of_leaf rfl fun n => by simp

/-- Every value that is read with the fuel has its numbers in range. -/
def ValuesInRange (fuel : Nat) : Prop :=
  ∀ depth cs json rest, readValue? fuel depth cs = some (json, rest) → json.NumbersInRange

/-- Behind items with their numbers in range only such are read with the fuel. -/
def ItemsInRange (fuel : Nat) : Prop :=
  ∀ depth cs before items rest, (∀ item ∈ before, item.NumbersInRange) →
    readItems? fuel depth cs before = some (items, rest) → ∀ item ∈ items, item.NumbersInRange

/-- Behind members with their numbers in range only such are read with the fuel. -/
def MembersInRange (fuel : Nat) : Prop :=
  ∀ depth cs before members rest, (∀ member ∈ before, member.2.NumbersInRange) →
    readMembers? fuel depth cs before = some (members, rest) →
      ∀ member ∈ members, member.2.NumbersInRange

theorem ValuesInRange.succ {fuel : Nat} (hitems : ItemsInRange fuel)
    (hmembers : MembersInRange fuel) : ValuesInRange (fuel + 1) := by
  intro depth cs json rest h
  simp only [readValue?] at h
  split at h
  case h_1 | h_2 | h_3 =>
    obtain ⟨rfl, -⟩ := Prod.mk.inj (Option.some.inj h)
    exact numbersInRange_of_leaf rfl fun n => by simp
  case h_4 =>
    obtain ⟨⟨text, left⟩, -, h⟩ := Option.bind_eq_some_iff.mp h
    obtain ⟨rfl, -⟩ := Prod.mk.inj (Option.some.inj h)
    cases text <;> exact numbersInRange_of_leaf rfl fun n => by simp
  case h_5 =>
    split at h
    · obtain ⟨rfl, -⟩ := Prod.mk.inj (Option.some.inj h)
      exact numbersInRange_nested (numbersInRange_array (by simp)) depth
    · obtain ⟨⟨items, left⟩, hfound, h⟩ := Option.bind_eq_some_iff.mp h
      obtain ⟨rfl, -⟩ := Prod.mk.inj (Option.some.inj h)
      exact numbersInRange_nested (numbersInRange_array (hitems _ _ _ _ _ (by simp) hfound)) depth
  case h_6 =>
    split at h
    · obtain ⟨rfl, -⟩ := Prod.mk.inj (Option.some.inj h)
      exact numbersInRange_nested (numbersInRange_object (by simp)) depth
    · obtain ⟨⟨members, left⟩, hfound, h⟩ := Option.bind_eq_some_iff.mp h
      obtain ⟨rfl, -⟩ := Prod.mk.inj (Option.some.inj h)
      exact numbersInRange_nested
        (numbersInRange_ofMembers (hmembers _ _ _ _ _ (by simp) hfound)) depth
  case h_7 =>
    obtain ⟨⟨numeral, left⟩, -, h⟩ := Option.bind_eq_some_iff.mp h
    obtain ⟨rfl, -⟩ := Prod.mk.inj (Option.some.inj h)
    exact numeral.numbersInRange_toJson

theorem ItemsInRange.succ {fuel : Nat} (hvalues : ValuesInRange fuel) (hitems : ItemsInRange fuel) :
    ItemsInRange (fuel + 1) := by
  intro depth cs before items rest hbefore h
  simp only [readItems?] at h
  obtain ⟨⟨item, left⟩, hitem, h⟩ := Option.bind_eq_some_iff.mp h
  have hread := List.forall_mem_cons.mpr ⟨hvalues _ _ _ _ hitem, hbefore⟩
  split at h
  · exact hitems _ _ _ _ _ hread h
  · obtain ⟨rfl, -⟩ := Prod.mk.inj (Option.some.inj h)
    simpa only [List.mem_reverse] using hread
  · cases h

theorem MembersInRange.succ {fuel : Nat} (hvalues : ValuesInRange fuel)
    (hmembers : MembersInRange fuel) : MembersInRange (fuel + 1) := by
  intro depth cs before members rest hbefore h
  simp only [readMembers?] at h
  split at h
  case h_2 => cases h
  obtain ⟨⟨name, left⟩, -, h⟩ := Option.bind_eq_some_iff.mp h
  split at h
  case h_2 => cases h
  obtain ⟨⟨value, left⟩, hfound, h⟩ := Option.bind_eq_some_iff.mp h
  have hread : ∀ member ∈ (name, value) :: before, member.2.NumbersInRange :=
    List.forall_mem_cons.mpr ⟨hvalues _ _ _ _ hfound, hbefore⟩
  split at h
  · exact hmembers _ _ _ _ _ hread h
  · obtain ⟨rfl, -⟩ := Prod.mk.inj (Option.some.inj h)
    simpa only [List.mem_reverse] using hread
  · cases h

theorem numbersInRange_of_fuel (fuel : Nat) :
    ValuesInRange fuel ∧ ItemsInRange fuel ∧ MembersInRange fuel := by
  induction fuel with
  | zero => simp [ValuesInRange, ItemsInRange, MembersInRange, readValue?, readItems?, readMembers?]
  | succ fuel ih =>
    obtain ⟨hvalues, hitems, hmembers⟩ := ih
    exact ⟨.succ hitems hmembers, .succ hvalues hitems, .succ hvalues hmembers⟩

theorem numbersInRange_of_read? {text : String} {json : Json} (h : read? text = some json) :
    json.NumbersInRange := by
  obtain ⟨⟨found, left⟩, hfound, h⟩ := Option.bind_eq_some_iff.mp h
  simp only at h
  split at h
  · obtain rfl := Option.some.inj h
    exact (numbersInRange_of_fuel _).1 _ _ _ _ hfound
  · cases h

end Json

end ObjectQuery
