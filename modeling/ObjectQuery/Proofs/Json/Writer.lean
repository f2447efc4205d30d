import ObjectQuery.Proofs.Json.Cut
import ObjectQuery.Proofs.Json.Numeral

/-!
JSON text that is written and read again. Main statement: a tree without unusable parts is read from
its text as it was, but for what is nested too deep.
-/

namespace ObjectQuery

namespace Json

variable {cs rest : List Char} {fuel : ℕ}

/-! ### Texts -/

theorem hexCode?_control : ∀ code < 0x20,
    hexCode? '0' '0' (Hexadecimal.lowerDigit (code / 16)) (Hexadecimal.lowerDigit (code % 16)) =
      some code := by
  decide

theorem text?_escape (c : Char) (before rest : List Char) :
    text? (some before) none (escape c ++ rest) = text? (some (c :: before)) none rest := by
  unfold escape
  split
  case h_8 hquote hslash _ _ _ _ _ =>
    split
    · rename_i hlt
      have hcode := hexCode?_control c.toNat hlt
      have hhigh : isHighSurrogate c.toNat = false := by
        simp [isHighSurrogate]
        omega
      have hlow : isLowSurrogate c.toNat = false := by
        simp [isLowSurrogate]
        omega
      simp [text?, hcode, hhigh, hlow]
    · rename_i hge
      have hslash : c ≠ '\\' := hslash
      rw [List.cons_append, text?.eq_def]
      split
      case h_5 heq =>
        obtain ⟨rfl, rfl⟩ := List.cons.inj heq
        simp [hge, hslash]
      all_goals simp_all
  all_goals rfl

theorem text?_flatMap_escape (s before rest : List Char) :
    text? (some before) none (s.flatMap escape ++ '"' :: rest) =
      some (some (String.ofList (before.reverse ++ s)), rest) := by
  induction s generalizing before with
  | nil => simp [text?]
  | cons c s ih =>
    rw [List.flatMap_cons, List.append_assoc, text?_escape, ih]
    simp

theorem toList_quote_append (s : String) (rest : List Char) :
    (quote s).toList ++ rest = '"' :: (s.toList.flatMap escape ++ '"' :: rest) := by
  simp [quote]

theorem text?_quote (s : String) (rest : List Char) :
    text? (some []) none (s.toList.flatMap escape ++ '"' :: rest) = some (some s, rest) := by
  rw [text?_flatMap_escape]
  simp

/-! ### Numbers -/

theorem exists_cons_of_isNumeral {numeral : Numeral} (h : IsNumeral cs numeral) :
    ∃ c tail, cs = c :: tail ∧ (c = '-' ∨ c.isDigit) := by
  have hread := h [] endsNumeral_nil
  rw [List.append_nil] at hread
  cases cs with
  | nil => cases hread
  | cons c tail =>
    refine ⟨c, tail, rfl, or_iff_not_imp_left.mpr fun hsign => ?_⟩
    by_contra hdigit
    rw [Bool.not_eq_true] at hdigit
    have hnone : digits? (c :: tail) = none := by
      rw [digits?, takeDigits, ObjectQuery.Numeral.digit?_eq_none hdigit]
    simp [numeral?, hsign, hnone] at hread

/-- A character that stands for nothing but the start of a value. -/
structure Opens (c : Char) : Prop where
  solid : isBlank c = false
  notClosing : c ≠ ']' ∧ c ≠ '\x7d'

theorem opens_of_numeral {c : Char} (h : c = '-' ∨ c.isDigit) : Opens c := by
  rcases h with rfl | h
  · exact ⟨rfl, by decide⟩
  · have hne : ∀ d : Char, d.isDigit = false → c ≠ d := fun d hd => ne_of_isDigit h hd
    exact ⟨by simp [isBlank, hne ' ' rfl, hne '\n' rfl, hne '\t' rfl, hne '\r' rfl],
      hne ']' rfl, hne '\x7d' rfl⟩

theorem Opens.skipBlank_cons {c : Char} (h : Opens c) (cs : List Char) :
    skipBlank (c :: cs) = c :: cs := by
  simp [skipBlank, h.solid]

theorem readValue?_of_isNumeral {numeral : Numeral} (h : IsNumeral cs numeral)
    (hrest : EndsNumeral rest) (fuel depth : ℕ) :
    readValue? (fuel + 1) depth (cs ++ rest) = some (numeral.toJson, rest) := by
  have hread := h rest hrest
  obtain ⟨c, tail, rfl, hc⟩ := exists_cons_of_isNumeral h
  rw [List.cons_append] at hread ⊢
  rw [readValue?, (opens_of_numeral hc).skipBlank_cons]
  split
  case h_7 => simp [hread]
  all_goals
    rename_i heq
    obtain ⟨rfl, -⟩ := List.cons.inj heq
    simp at hc

end Json

/-- A number that is written is read as itself. -/
def JsonNumber.Rereads (n : JsonNumber) : Prop :=
  Json.read? (Json.renderNumber n) = some (.number n)

namespace Json

theorem rereads_iff {n : JsonNumber} {numeral : Numeral}
    (h : IsNumeral (renderNumber n).toList numeral) : n.Rereads ↔ numeral.toJson = .number n := by
  have hread := readValue?_of_isNumeral h endsNumeral_nil
    (2 * (renderNumber n).toList.length + 1) nestingLimit
  rw [List.append_nil] at hread
  have heq : read? (renderNumber n) = some numeral.toJson := by
    rw [read?]
    simp only [hread]
    rfl
  rw [JsonNumber.Rereads, heq, Option.some_inj]

theorem rereads_integer {n : Int} (h : (JsonNumber.integer n).InRange) :
    (JsonNumber.integer n).Rereads :=
  (rereads_iff (isNumeral_integer n)).mpr (toJson_integer h)

theorem read?_null : read? "null" = some .null := rfl

theorem exists_isNumeral_of_rereads {n : JsonNumber} (h : n.Rereads) :
    ∃ numeral, IsNumeral (renderNumber n).toList numeral ∧ numeral.toJson = .number n := by
  have hexists : ∃ numeral, IsNumeral (renderNumber n).toList numeral := by
    cases n with
    | integer n => exact ⟨_, isNumeral_integer n⟩
    | double x =>
      cases x with
      | finite negative units fits =>
        exact exists_isNumeral_renderBinary BinaryFormat.double_searchable _ negative fits
      | _ => cases read?_null.symm.trans h
    | single x =>
      cases x with
      | finite negative units fits =>
        exact exists_isNumeral_renderBinary BinaryFormat.single_searchable _ negative fits
      | _ => cases read?_null.symm.trans h
  obtain ⟨numeral, hnumeral⟩ := hexists
  exact ⟨numeral, hnumeral, (rereads_iff hnumeral).mp h⟩

/-! ### Trees -/

/-- A tree is read from its text, with what is nested too deep cut off. -/
def ReadsBack (json : Json) : Prop :=
  ∀ fuel depth rest, 2 * json.render.toList.length ≤ fuel → EndsNumeral rest →
    readValue? fuel depth (json.render.toList ++ rest) = some (json.cut depth, rest)

def joined (texts : List (List Char)) : List Char := [','].intercalate texts

theorem joined_map_cons {α : Type} (text : α → List Char) (first next : α) (others : List α) :
    joined ((first :: next :: others).map text) =
      text first ++ ',' :: joined ((next :: others).map text) := by
  simp [joined]

@[simp] theorem joined_singleton (text : List Char) : joined [text] = text := by
  simp [joined]

theorem toList_render_array (items : List Json) :
    (Json.array items).render.toList =
      '[' :: (joined (items.map fun item => item.render.toList) ++ [']']) := by
  have hitems : ∀ items, (renderItems items).map String.toList =
      items.map fun item => item.render.toList := by
    intro items
    induction items with
    | nil => rfl
    | cons item rest ih => simp [renderItems, ih]
  simp [render, String.toList_intercalate, hitems, joined]

/-- The text of a member of an object. -/
def memberText (member : String × Json) : List Char :=
  (quote member.1).toList ++ ':' :: member.2.render.toList

theorem toList_render_object (members : List (String × Json)) :
    (Json.object members).render.toList = '\x7b' ::
    (joined (members.map memberText) ++ ['\x7d']) := by
  have hmembers : ∀ members, (renderMembers members).map String.toList =
      members.map memberText := by
    intro members
    induction members with
    | nil => rfl
    | cons member rest ih => simp [renderMembers, memberText, ih]
  simp [render, String.toList_intercalate, hmembers, joined]

theorem endsNumeral_cons {c : Char} (h : c.isDigit = false ∧ c ≠ '.' ∧ c ≠ 'e' ∧ c ≠ 'E')
    (rest : List Char) : EndsNumeral (c :: rest) := by
  rintro _ ⟨⟩
  exact h

variable {json : Json} {member : String × Json}

theorem readItems?_comma (h : json.ReadsBack) (hfuel : 2 * json.render.toList.length ≤ fuel)
    (depth : ℕ) (before : List Json) :
    readItems? (fuel + 1) depth (json.render.toList ++ ',' :: rest) before =
      readItems? fuel depth rest (json.cut depth :: before) := by
  have hblank : skipBlank (',' :: rest) = ',' :: rest := rfl
  rw [readItems?, h fuel depth _ hfuel (endsNumeral_cons (by decide) rest)]
  simp [hblank]

theorem readItems?_bracket (h : json.ReadsBack) (hfuel : 2 * json.render.toList.length ≤ fuel)
    (depth : ℕ) (before : List Json) :
    readItems? (fuel + 1) depth (json.render.toList ++ ']' :: rest) before =
      some ((json.cut depth :: before).reverse, rest) := by
  have hblank : skipBlank (']' :: rest) = ']' :: rest := rfl
  rw [readItems?, h fuel depth _ hfuel (endsNumeral_cons (by decide) rest)]
  simp [hblank]

theorem readItems?_joined {items : List Json} (h : ∀ item ∈ json :: items, item.ReadsBack)
    (depth : ℕ) (before : List Json)
    (hfuel : 2 * (joined ((json :: items).map fun item => item.render.toList)).length < fuel) :
    readItems? fuel depth
        (joined ((json :: items).map fun item => item.render.toList) ++ ']' :: rest) before =
      some (before.reverse ++ (json :: items).map (cut depth), rest) := by
  induction items generalizing json fuel before with
  | nil =>
    obtain ⟨fuel, rfl⟩ : ∃ k, fuel = k + 1 := ⟨fuel - 1, by omega⟩
    simp only [List.map_cons, List.map_nil, joined_singleton] at hfuel ⊢
    rw [readItems?_bracket (h json (by simp)) (by omega), List.reverse_cons]
  | cons next items ih =>
    obtain ⟨fuel, rfl⟩ : ∃ k, fuel = k + 1 := ⟨fuel - 1, by omega⟩
    rw [List.forall_mem_cons] at h
    rw [joined_map_cons] at hfuel ⊢
    rw [List.length_append, List.length_cons] at hfuel
    rw [List.append_assoc, List.cons_append, readItems?_comma h.1 (by omega), ih h.2 _ (by omega)]
    simp

/-- A member of an object as it is read. -/
def readMember (depth : ℕ) (member : String × Json) : Option String × Json :=
  (some member.1, member.2.cut depth)

theorem readMembers?_comma (h : member.2.ReadsBack)
    (hfuel : 2 * member.2.render.toList.length ≤ fuel) (depth : ℕ)
    (before : List (Option String × Json)) :
    readMembers? (fuel + 1) depth (memberText member ++ ',' :: rest) before =
      readMembers? fuel depth rest (readMember depth member :: before) := by
  have hquote : ∀ cs, skipBlank ('"' :: cs) = '"' :: cs := fun _ => rfl
  have hcolon : ∀ cs, skipBlank (':' :: cs) = ':' :: cs := fun _ => rfl
  have hblank : skipBlank (',' :: rest) = ',' :: rest := rfl
  have hvalue := h fuel depth _ hfuel (endsNumeral_cons (by decide : ','.isDigit = false ∧ _) rest)
  rw [memberText, List.append_assoc, toList_quote_append, readMembers?, hquote]
  simp [text?_quote, hcolon, hvalue, hblank, readMember]

theorem readMembers?_brace (h : member.2.ReadsBack)
    (hfuel : 2 * member.2.render.toList.length ≤ fuel) (depth : ℕ)
    (before : List (Option String × Json)) :
    readMembers? (fuel + 1) depth (memberText member ++ '\x7d' :: rest) before =
      some ((readMember depth member :: before).reverse, rest) := by
  have hquote : ∀ cs, skipBlank ('"' :: cs) = '"' :: cs := fun _ => rfl
  have hcolon : ∀ cs, skipBlank (':' :: cs) = ':' :: cs := fun _ => rfl
  have hblank : skipBlank ('\x7d' :: rest) = '\x7d' :: rest := rfl
  have hvalue :=
    h fuel depth _ hfuel (endsNumeral_cons (by decide : '\x7d'.isDigit = false ∧ _) rest)
  rw [memberText, List.append_assoc, toList_quote_append, readMembers?, hquote]
  simp [text?_quote, hcolon, hvalue, hblank, readMember]

theorem readMembers?_joined {members : List (String × Json)}
    (h : ∀ other ∈ member :: members, other.2.ReadsBack) (depth : ℕ)
    (before : List (Option String × Json))
    (hfuel : 2 * (joined ((member :: members).map memberText)).length < fuel) :
    readMembers? fuel depth (joined ((member :: members).map memberText) ++ '\x7d' :: rest) before =
      some (before.reverse ++ (member :: members).map (readMember depth), rest) := by
  have hvalue : ∀ member : String × Json,
      member.2.render.toList.length < (memberText member).length := by
    intro member
    simp [memberText]
    omega
  induction members generalizing member fuel before with
  | nil =>
    obtain ⟨fuel, rfl⟩ : ∃ k, fuel = k + 1 := ⟨fuel - 1, by omega⟩
    have := hvalue member
    simp only [List.map_cons, List.map_nil, joined_singleton] at hfuel ⊢
    rw [readMembers?_brace (h member (by simp)) (by omega), List.reverse_cons]
  | cons next members ih =>
    obtain ⟨fuel, rfl⟩ : ∃ k, fuel = k + 1 := ⟨fuel - 1, by omega⟩
    have := hvalue member
    rw [List.forall_mem_cons] at h
    rw [joined_map_cons] at hfuel ⊢
    rw [List.length_append, List.length_cons] at hfuel
    rw [List.append_assoc, List.cons_append, readMembers?_comma h.1 (by omega), ih h.2 _ (by omega)]
    simp

theorem exists_opening (h : json.All (Legible JsonNumber.Rereads)) :
    ∃ c tail, json.render.toList = c :: tail ∧ Opens c := by
  cases json with
  | null => exact ⟨'n', _, rfl, by decide, by decide⟩
  | boolean b =>
    cases b with
    | true => exact ⟨'t', _, rfl, by decide, by decide⟩
    | false => exact ⟨'f', _, rfl, by decide, by decide⟩
  | number n =>
    obtain ⟨numeral, hnumeral, -⟩ := exists_isNumeral_of_rereads h.self
    obtain ⟨c, tail, heq, hc⟩ := exists_cons_of_isNumeral hnumeral
    exact ⟨c, tail, heq, opens_of_numeral hc⟩
  | string s =>
    have heq := toList_quote_append s []
    rw [List.append_nil] at heq
    exact ⟨'"', _, heq, by decide, by decide⟩
  | array items => exact ⟨'[', _, toList_render_array items, by decide, by decide⟩
  | object members => exact ⟨'\x7b', _, toList_render_object members, by decide, by decide⟩
  | unreadable => cases h.self

theorem Opens.readValue?_bracket {c : Char} (hc : Opens c) (depth : ℕ) :
    readValue? (fuel + 1) depth ('[' :: c :: cs) =
      (readItems? fuel (depth - 1) (c :: cs) []).map fun found =>
        (nested depth (.array found.1), found.2) := by
  have hblank : ∀ cs, skipBlank ('[' :: cs) = '[' :: cs := fun _ => rfl
  rw [readValue?, hblank]
  simp only [hc.skipBlank_cons]
  split
  · rename_i heq
    exact absurd (List.cons.inj heq).1 hc.notClosing.1
  · cases readItems? fuel (depth - 1) (c :: cs) [] <;> rfl

theorem Opens.readValue?_brace {c : Char} (hc : Opens c) (depth : ℕ) :
    readValue? (fuel + 1) depth ('\x7b' :: c :: cs) =
      (readMembers? fuel (depth - 1) (c :: cs) []).map fun found =>
        (nested depth (ofMembers found.1), found.2) := by
  have hblank : ∀ cs, skipBlank ('\x7b' :: cs) = '\x7b' :: cs := fun _ => rfl
  rw [readValue?, hblank]
  simp only [hc.skipBlank_cons]
  split
  · rename_i heq
    exact absurd (List.cons.inj heq).1 hc.notClosing.2
  · cases readMembers? fuel (depth - 1) (c :: cs) [] <;> rfl

theorem exists_joined_map {α : Type} (text : α → List Char) {first : α} {c : Char}
    {tail : List Char} (htext : text first = c :: tail) (others : List α) :
    ∃ behind, joined ((first :: others).map text) = c :: behind := by
  cases others with
  | nil => exact ⟨tail, by simp [htext]⟩
  | cons next others => exact ⟨_, by rw [joined_map_cons, htext, List.cons_append]⟩

theorem readValue?_array {items : List Json} (h : ∀ item ∈ items, item.ReadsBack)
    (hopen : ∀ item ∈ items, ∃ c tail, item.render.toList = c :: tail ∧ Opens c) (depth : ℕ)
    (hfuel : 2 * (joined (items.map fun item => item.render.toList)).length < fuel) :
    readValue? (fuel + 1) depth ((Json.array items).render.toList ++ rest) =
      some ((Json.array items).cut depth, rest) := by
  rw [toList_render_array, cut_array, List.cons_append, List.append_assoc]
  cases items with
  | nil => rfl
  | cons item items =>
    obtain ⟨c, tail, htext, hc⟩ := hopen item (by simp)
    obtain ⟨behind, hjoined⟩ :=
      exists_joined_map (fun item : Json => item.render.toList) htext items
    rw [hjoined, List.cons_append, hc.readValue?_bracket, ← List.cons_append, ← hjoined,
      List.singleton_append, readItems?_joined h _ _ hfuel]
    rfl

theorem ofMembers_readMember (depth : ℕ) (members : List (String × Json)) :
    ofMembers (members.map (readMember depth)) =
      .object (members.map fun member => (member.1, member.2.cut depth)) := by
  have hnamed : (members.map (readMember depth)).mapM
      (fun member : Option String × Json => member.1.map (·, member.2)) =
        some (members.map fun member => (member.1, member.2.cut depth)) :=
    mapM_map_eq_some fun member _ => rfl
  rw [ofMembers, hnamed]

theorem readValue?_object {members : List (String × Json)}
    (h : ∀ member ∈ members, member.2.ReadsBack) (depth : ℕ)
    (hfuel : 2 * (joined (members.map memberText)).length < fuel) :
    readValue? (fuel + 1) depth ((Json.object members).render.toList ++ rest) =
      some ((Json.object members).cut depth, rest) := by
  rw [toList_render_object, cut_object, List.cons_append, List.append_assoc]
  cases members with
  | nil => rfl
  | cons member members =>
    have hc : Opens '"' := ⟨rfl, by decide⟩
    obtain ⟨behind, hjoined⟩ :=
      exists_joined_map memberText (toList_quote_append member.1 _) members
    rw [hjoined, List.cons_append, hc.readValue?_brace, ← List.cons_append, ← hjoined,
      List.singleton_append, readMembers?_joined h _ _ hfuel, List.reverse_nil, List.nil_append,
      Option.map_some, ofMembers_readMember]

theorem readsBack_of_legible (h : json.All (Legible JsonNumber.Rereads)) : json.ReadsBack := by
  induction h with
  | @node json hself hbelow ih =>
    intro fuel depth rest hfuel hrest
    obtain ⟨c, tail, hopen, -⟩ := exists_opening ⟨hself, hbelow⟩
    obtain ⟨fuel, rfl⟩ : ∃ k, fuel = k + 1 :=
      ⟨fuel - 1, by rw [hopen, List.length_cons] at hfuel; omega⟩
    cases json with
    | null => rfl
    | boolean b => cases b <;> rfl
    | number n =>
      obtain ⟨numeral, hnumeral, hvalue⟩ := exists_isNumeral_of_rereads hself
      have hread := readValue?_of_isNumeral hnumeral hrest fuel depth
      rwa [hvalue] at hread
    | string s =>
      have hblank : ∀ cs, skipBlank ('"' :: cs) = '"' :: cs := fun _ => rfl
      rw [render, toList_quote_append, readValue?, hblank]
      simp [text?_quote, cut]
    | array items =>
      rw [toList_render_array, List.length_cons, List.length_append, List.length_singleton] at hfuel
      have hlength : 2 * (joined (items.map fun item => item.render.toList)).length < fuel :=
        by omega
      exact readValue?_array ih (fun item hitem => exists_opening (hbelow item hitem)) depth hlength
    | object members =>
      rw [toList_render_object, List.length_cons, List.length_append, List.length_singleton]
        at hfuel
      exact readValue?_object (fun member hmember => ih _ (List.mem_map_of_mem hmember)) depth
        (by omega)
    | unreadable => cases hself

/-- What is written is read back, but for what is nested too deep. -/
theorem read?_render (h : json.All (Legible JsonNumber.Rereads)) :
    read? json.render = some (json.cut nestingLimit) := by
  have hread := readsBack_of_legible h (2 * json.render.toList.length + 2) nestingLimit []
    (by omega) endsNumeral_nil
  rw [List.append_nil] at hread
  rw [read?]
  simp only [hread]
  rfl

end Json

end ObjectQuery
