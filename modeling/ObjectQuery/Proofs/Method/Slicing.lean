import ObjectQuery.Method.Text

/-!
Texts as the UTF-8 bytes that they are stored in. A slice of bytes is a text only between two bytes
at which characters begin. Main statement: the slices that the methods of texts take, whose places
are counted in characters, all lie between such bytes.
-/

namespace ObjectQuery

/-- The byte at which the character of a number begins; one past the last is allowed. -/
def charOffset? : List Char → Nat → Option Nat
  | _, 0 => some 0
  | [], _ + 1 => none
  | c :: rest, n + 1 => (charOffset? rest n).map (c.utf8Size + ·)

/-- The byte of a position counted in characters, if there is such a position. -/
def byteOffset? (s : String) (index : Int) : Option Nat :=
  if 0 ≤ index then charOffset? s.toList index.toNat else none

/-- The text between two bytes. There is none if they are out of order, or if one of them lies
beyond the text or inside a character. -/
def sliceBytes? (s : String) (start stop : Nat) : Option String :=
  if h : start ≤ stop ∧ String.Pos.Raw.IsValid s ⟨start⟩ ∧ String.Pos.Raw.IsValid s ⟨stop⟩ then
    some (String.extract (s.pos ⟨start⟩ h.2.1) (s.pos ⟨stop⟩ h.2.2))
  else none

theorem sliceBytes?_append (before slice after : String) :
    sliceBytes? (before ++ slice ++ after) before.utf8ByteSize
      (before.utf8ByteSize + slice.utf8ByteSize) = some slice := by
  have hstart : String.Pos.Raw.IsValid (before ++ slice ++ after) ⟨before.utf8ByteSize⟩ :=
    String.Pos.Raw.isValid_iff_exists_append.mpr ⟨before, slice ++ after, String.append_assoc, rfl⟩
  have hstop : String.Pos.Raw.IsValid (before ++ slice ++ after)
      ⟨before.utf8ByteSize + slice.utf8ByteSize⟩ :=
    String.Pos.Raw.isValid_iff_exists_append.mpr
      ⟨before ++ slice, after, rfl, by simp [String.rawEndPos, String.utf8ByteSize_append]⟩
  rw [sliceBytes?, dif_pos ⟨Nat.le_add_right _ _, hstart, hstop⟩, Option.some_inj,
    ← String.toByteArray_inj, String.toByteArray_extract]
  have hend : (before ++ slice).toByteArray.size = before.utf8ByteSize + slice.utf8ByteSize := by
    simp
  have hafter : after.toByteArray.extract (before.utf8ByteSize - (before ++ slice).toByteArray.size)
      (before.utf8ByteSize + slice.utf8ByteSize - (before ++ slice).toByteArray.size) =
      ByteArray.empty := by
    simp
  simp only [String.offset_pos, String.toByteArray_append (s := before ++ slice),
    ByteArray.extract_append, hafter, ByteArray.append_empty]
  rw [String.toByteArray_append]
  exact ByteArray.extract_append_eq_right (by simp) (by simp)

theorem charOffset?_eq (cs : List Char) (n : Nat) :
    charOffset? cs n =
      if n ≤ cs.length then some (String.ofList (cs.take n)).utf8ByteSize else none := by
  induction cs generalizing n with
  | nil => cases n <;> simp [charOffset?]
  | cons c rest ih =>
    cases n with
    | zero => simp [charOffset?]
    | succ n =>
      simp only [charOffset?, ih, List.length_cons, Nat.add_le_add_iff_right, List.take_succ_cons,
        String.ofList_cons, String.utf8ByteSize_append, String.utf8ByteSize_singleton]
      split <;> rfl

theorem sliceBytes?_ofList (cs : List Char) {low high : Nat} (h : low ≤ high) :
    sliceBytes? (String.ofList cs) (String.ofList (cs.take low)).utf8ByteSize
      (String.ofList (cs.take high)).utf8ByteSize =
        some (String.ofList ((cs.drop low).take (high - low))) := by
  have htake : cs.take high = cs.take low ++ (cs.drop low).take (high - low) := by
    rw [← List.take_add, Nat.add_sub_cancel' h]
  have hcs : cs = cs.take low ++ (cs.drop low).take (high - low) ++ cs.drop high := by
    rw [← htake, List.take_append_drop]
  have hslice := sliceBytes?_append (String.ofList (cs.take low))
    (String.ofList ((cs.drop low).take (high - low))) (String.ofList (cs.drop high))
  rw [← String.ofList_append, ← String.ofList_append, ← hcs] at hslice
  rw [htake, String.ofList_append, String.utf8ByteSize_append]
  exact hslice

theorem utf8ByteSize_take_le_iff (cs : List Char) {low high : Nat} (hlow : low ≤ cs.length) :
    (String.ofList (cs.take low)).utf8ByteSize ≤ (String.ofList (cs.take high)).utf8ByteSize ↔
      low ≤ high := by
  have hsplit : ∀ {i j : Nat}, i ≤ j → (String.ofList (cs.take j)).utf8ByteSize =
      (String.ofList (cs.take i)).utf8ByteSize +
        (String.ofList ((cs.drop i).take (j - i))).utf8ByteSize := by
    intro i j hij
    rw [← String.utf8ByteSize_append, ← String.ofList_append, ← List.take_add,
      Nat.add_sub_cancel' hij]
  constructor
  · intro hle
    rcases Nat.le_total low high with hlow' | hge
    · exact hlow'
    · have hgap : (String.ofList ((cs.drop high).take (low - high))).utf8ByteSize = 0 := by
        have := hsplit hge
        omega
      have hnil : (cs.drop high).take (low - high) = [] := by
        simpa [String.utf8ByteSize_eq_zero_iff, String.ofList_eq_empty_iff] using hgap
      have hlength := congrArg List.length hnil
      simp only [List.length_take, List.length_drop, List.length_nil] at hlength
      omega
  · intro hle
    have := hsplit hle
    omega

theorem byteOffset?_eq (s : String) (index : Int) :
    byteOffset? s index = (position? s.toList.length index).map fun n =>
      (String.ofList (s.toList.take n)).utf8ByteSize := by
  rw [byteOffset?, position?, charOffset?_eq]
  by_cases hindex : 0 ≤ index
  · by_cases hle : index.toNat ≤ s.toList.length
    · have : index ≤ s.toList.length := by omega
      simp [hindex, hle, this]
    · have : ¬ index ≤ s.toList.length := by omega
      simp [hindex, hle, this]
  · simp [hindex]

/-! ### Substrings -/

namespace TextMethod

/-- The text between two positions, sliced by bytes; nothing at all if a slice would be cut through
a character. -/
def byteSlice? (method : TextMethod) (s : String) (start stop : Int) : Option (Eval Operand) :=
  match byteOffset? s start, byteOffset? s stop with
  | none, _ => some (method.outOfRange start)
  | some _, none => some (method.outOfRange stop)
  | some low, some high =>
    if low ≤ high then (sliceBytes? s low high).map fun text => answer (.string text)
    else some (method.outOfRange stop)

/-- A slice by bytes is never cut through a character, and it is the slice by characters. -/
theorem byteSlice?_eq (method : TextMethod) (s : String) (start stop : Int) :
    method.byteSlice? s start stop = some (method.slice s.toList start stop) := by
  rw [byteSlice?, slice, byteOffset?_eq, byteOffset?_eq]
  cases hstart : position? s.toList.length start with
  | none => rfl
  | some low =>
    cases position? s.toList.length stop with
    | none => rfl
    | some high =>
      have hlow : low ≤ s.toList.length := by
        simp only [position?, Option.ite_none_right_eq_some, Option.some.injEq] at hstart
        omega
      simp only [Option.map_some, utf8ByteSize_take_le_iff s.toList hlow]
      split
      · rename_i hle
        have hslice := sliceBytes?_ofList s.toList hle
        rw [String.ofList_toList] at hslice
        rw [hslice]
        rfl
      · rfl

end TextMethod

/-! ### Searches -/

/-- How far before the first occurrence a text goes, in bytes. -/
def occurrenceOffset? (needle : List Char) : List Char → Option Nat
  | [] => if needle.isEmpty then some 0 else none
  | c :: rest =>
    if needle.isPrefixOf (c :: rest) then some 0
    else (occurrenceOffset? needle rest).map (c.utf8Size + ·)

/-- Where a text occurs from a position on, found by bytes and then counted in characters; nothing
at all if a slice would be cut through a character. -/
def byteIndexFrom? (s needle : String) (start : Int) : Option (Option Nat) :=
  match byteOffset? s start with
  | none => some none
  | some low =>
    (sliceBytes? s low s.utf8ByteSize).bind fun rest =>
      match occurrenceOffset? needle.toList rest.toList with
      | none => some none
      | some found => (sliceBytes? s 0 (low + found)).map fun before => some before.toList.length

theorem le_length_of_occurrence? {needle cs : List Char} {n : Nat}
    (h : occurrence? needle cs = some n) : n ≤ cs.length := by
  induction cs generalizing n with
  | nil =>
    simp only [occurrence?, Option.ite_none_right_eq_some, Option.some.injEq] at h
    omega
  | cons c rest ih =>
    rw [occurrence?] at h
    split at h
    · obtain rfl := Option.some.inj h
      exact Nat.zero_le _
    · obtain ⟨m, hm, rfl⟩ := Option.map_eq_some_iff.mp h
      exact Nat.succ_le_succ (ih hm)

theorem occurrenceOffset?_eq (needle cs : List Char) :
    occurrenceOffset? needle cs = (occurrence? needle cs).map fun n =>
      (String.ofList (cs.take n)).utf8ByteSize := by
  induction cs with
  | nil =>
    rw [occurrenceOffset?, occurrence?]
    split <;> rfl
  | cons c rest ih =>
    rw [occurrenceOffset?, occurrence?, ih]
    split
    · rfl
    · simp only [Option.map_map]
      congr 1
      funext n
      simp only [Function.comp_apply, List.take_succ_cons, String.ofList_cons,
        String.utf8ByteSize_append, String.utf8ByteSize_singleton]

/-- A search by bytes never cuts through a character, and it finds what a search by characters
finds. -/
theorem byteIndexFrom?_eq (s needle : String) (start : Int) :
    byteIndexFrom? s needle start = some (indexFrom? s.toList needle.toList start) := by
  rw [byteIndexFrom?, byteOffset?_eq, indexFrom?]
  cases hstart : position? s.toList.length start with
  | none => rfl
  | some low =>
    have hlow : low ≤ s.toList.length := by
      simp only [position?, Option.ite_none_right_eq_some, Option.some.injEq] at hstart
      omega
    have hrest := sliceBytes?_ofList s.toList hlow
    rw [List.take_length, String.ofList_toList,
      List.take_of_length_le (l := s.toList.drop low) (by simp)] at hrest
    simp only [Option.map_some, hrest, Option.bind_some, String.toList_ofList,
      occurrenceOffset?_eq]
    cases hfound : occurrence? needle.toList (s.toList.drop low) with
    | none => simp [hfound]
    | some n =>
      have hn := le_length_of_occurrence? hfound
      rw [List.length_drop] at hn
      have hbefore := sliceBytes?_ofList s.toList (Nat.zero_le (low + n))
      rw [String.ofList_toList, List.take_add, String.ofList_append, String.utf8ByteSize_append]
        at hbefore
      simp only [List.take_zero, String.ofList_nil, String.utf8ByteSize_empty, List.drop_zero,
        Nat.sub_zero] at hbefore
      have hlength : min (low + n) s.toList.length = low + n := Nat.min_eq_left (by omega)
      simp [hbefore, hlength, hfound]

end ObjectQuery
