import ObjectQuery.Proofs.Evaluation.Arguments
import ObjectQuery.Proofs.Method.Slicing

/-!
Parts of texts by their positions, counted in characters. Main statement: a substring is the part
between its positions, and reported if there is none; the front and the back of a text at a position
make up the text; and a text is found at the first position from which it is a part, if there is one
at all.
-/

namespace ObjectQuery

/-- The characters of a text from a position up to another. -/
def PartOf (s : String) (start stop : Int) (part : String) : Prop :=
  ∃ before after, s = before ++ part ++ after ∧ (before.length : Int) = start ∧
    start + part.length = stop

/-- The positions from one on at which a text occurs in another. -/
def Occurrences (s t : String) (start : Int) : Set Int :=
  {i | start ≤ i ∧ PartOf s i (i + t.length) t}

section Parts

variable {s t part : String} {start stop : Int}

theorem partOf_iff : PartOf s start stop part ↔
    (0 ≤ start ∧ start ≤ s.length) ∧ stop = start + part.length ∧
      part.toList <+: s.toList.drop start.toNat := by
  constructor
  · rintro ⟨before, after, rfl, rfl, rfl⟩
    refine ⟨⟨Int.natCast_nonneg _, by simp only [String.length_append]; omega⟩, rfl, ?_⟩
    rw [Int.toNat_natCast, String.toList_append, String.toList_append, List.append_assoc,
      ← String.length_toList, List.drop_left]
    exact List.prefix_append _ _
  · rintro ⟨⟨hstart, hle⟩, rfl, after, hafter⟩
    refine ⟨String.ofList (s.toList.take start.toNat), String.ofList after, ?_, ?_, rfl⟩
    · rw [← String.toList_inj, String.toList_append, String.toList_append, String.toList_ofList,
        String.toList_ofList, List.append_assoc, hafter, List.take_append_drop]
    · rw [String.length_ofList, List.length_take, String.length_toList]
      omega

theorem exists_partOf_iff :
    (∃ part, PartOf s start stop part) ↔ 0 ≤ start ∧ start ≤ stop ∧ stop ≤ s.length := by
  constructor
  · rintro ⟨part, before, after, rfl, rfl, rfl⟩
    simp only [String.length_append]
    omega
  · rintro ⟨hstart, horder, hstop⟩
    refine ⟨String.ofList ((s.toList.drop start.toNat).take (stop - start).toNat),
      partOf_iff.mpr ⟨⟨hstart, by omega⟩, ?_, ?_⟩⟩
    · rw [String.length_ofList, List.length_take, List.length_drop, String.length_toList]
      omega
    · rw [String.toList_ofList]
      exact List.take_prefix _ _

theorem append_of_partOf {front back : String} (hfront : PartOf s 0 start front)
    (hback : PartOf s start s.length back) : front ++ back = s := by
  obtain ⟨-, rfl, rest, hrest⟩ := partOf_iff.mp hfront
  obtain ⟨-, hlength, hstarts⟩ := partOf_iff.mp hback
  have hsplit : s.toList = front.toList ++ rest := hrest.symm
  rw [zero_add] at hlength hstarts
  rw [Int.toNat_natCast, hsplit, ← String.length_toList, List.drop_left] at hstarts
  have hback : back.toList = rest := by
    refine hstarts.eq_of_length ?_
    simp only [← String.length_toList, hsplit, List.length_append] at hlength
    omega
  rw [← String.toList_inj, String.toList_append, hback, hsplit]

theorem mem_occurrences_iff {i : Int} : i ∈ Occurrences s t start ↔
    start ≤ i ∧ (0 ≤ i ∧ i ≤ s.length) ∧ t.toList <+: s.toList.drop i.toNat := by
  simp [Occurrences, partOf_iff]

end Parts

/-! ### Slices and searches -/

theorem position?_eq_some_iff {length low : Nat} {index : Int} :
    position? length index = some low ↔ index = low ∧ low ≤ length := by
  simp only [position?, Option.ite_none_right_eq_some, Option.some.injEq]
  omega

theorem position?_eq_none_iff {length : Nat} {index : Int} :
    position? length index = none ↔ ¬ (0 ≤ index ∧ index ≤ length) := by
  simp [position?]

theorem occurrence?_eq_find? (needle cs : List Char) : occurrence? needle cs =
    (List.range (cs.length + 1)).find? fun n => needle.isPrefixOf (cs.drop n) := by
  induction cs with
  | nil => cases needle <;> rfl
  | cons c rest ih =>
    rw [occurrence?, ih, List.length_cons, List.range_succ_eq_map (n := rest.length + 1),
      List.find?_cons, List.find?_map, List.drop_zero]
    cases needle.isPrefixOf (c :: rest) <;> rfl

/-- What is found is the first place at which the one list is a prefix of the rest of the other. -/
theorem occurrence?_eq_some_iff {needle cs : List Char} {n : Nat} :
    occurrence? needle cs = some n ↔
      needle <+: cs.drop n ∧ n ≤ cs.length ∧ ∀ m < n, ¬ needle <+: cs.drop m := by
  rw [occurrence?_eq_find?, List.find?_range_eq_some]
  simp only [Bool.not_eq_true', ← Bool.not_eq_true, List.isPrefixOf_iff_prefix, List.mem_range,
    Nat.lt_succ_iff]

theorem occurrence?_eq_none_iff {needle cs : List Char} :
    occurrence? needle cs = none ↔ ∀ n ≤ cs.length, ¬ needle <+: cs.drop n := by
  simp [occurrence?_eq_find?]

section Searches

variable {s t : String} {start : Int} {low n : Nat}

theorem occurrences_of_length_lt (h : s.length < start) : Occurrences s t start = ∅ := by
  refine Set.eq_empty_of_forall_notMem fun i hi => ?_
  obtain ⟨hstart, ⟨-, hi⟩, -⟩ := mem_occurrences_iff.mp hi
  omega

theorem isLeast_occurrences_empty (hstart : 0 ≤ start) (hle : start ≤ s.length) :
    IsLeast (Occurrences s "" start) start :=
  ⟨mem_occurrences_iff.mpr ⟨le_refl _, ⟨hstart, hle⟩, List.nil_prefix⟩, fun _ hi => hi.1⟩

theorem mem_occurrences_natCast_iff (hlow : low ≤ s.length) {i : Int} :
    i ∈ Occurrences s t low ↔ ∃ n : Nat, i = (low + n : Nat) ∧
      t.toList <+: (s.toList.drop low).drop n ∧ n ≤ (s.toList.drop low).length := by
  rw [mem_occurrences_iff, List.length_drop, String.length_toList]
  constructor
  · rintro ⟨hi, ⟨-, hlength⟩, hstarts⟩
    refine ⟨i.toNat - low, by omega, ?_, by omega⟩
    rwa [List.drop_drop, Nat.add_sub_cancel' (by omega)]
  · rintro ⟨n, rfl, hstarts, hlength⟩
    rw [List.drop_drop] at hstarts
    exact ⟨by omega, ⟨by omega, by omega⟩, hstarts⟩

theorem indexFrom?_natCast (hlow : low ≤ s.length) :
    indexFrom? s.toList t.toList low =
      (occurrence? t.toList (s.toList.drop low)).map (low + ·) := by
  have hposition : position? s.toList.length low = some low :=
    position?_eq_some_iff.mpr ⟨rfl, by rwa [String.length_toList]⟩
  rw [indexFrom?, hposition]
  cases hfound : occurrence? t.toList (s.toList.drop low) <;> simp [hfound]

/-- A search from a position on finds the least one at which a text occurs. -/
theorem isLeast_of_indexFrom? (h : indexFrom? s.toList t.toList start = some n) :
    IsLeast (Occurrences s t start) n := by
  cases hposition : position? s.toList.length start with
  | none => rw [indexFrom?, hposition] at h; cases h
  | some low =>
    obtain ⟨rfl, hlow⟩ := position?_eq_some_iff.mp hposition
    rw [String.length_toList] at hlow
    rw [indexFrom?_natCast hlow, Option.map_eq_some_iff] at h
    obtain ⟨n, hfound, rfl⟩ := h
    obtain ⟨hstarts, hlength, hleast⟩ := occurrence?_eq_some_iff.mp hfound
    refine ⟨(mem_occurrences_natCast_iff hlow).mpr ⟨n, rfl, hstarts, hlength⟩, fun i hi => ?_⟩
    obtain ⟨m, rfl, hstarts, -⟩ := (mem_occurrences_natCast_iff hlow).mp hi
    have hle : n ≤ m := Nat.le_of_not_lt fun hlt => hleast m hlt hstarts
    omega

theorem occurrences_of_indexFrom? (hstart : 0 ≤ start)
    (h : indexFrom? s.toList t.toList start = none) : Occurrences s t start = ∅ := by
  cases hposition : position? s.toList.length start with
  | none =>
    have hout := position?_eq_none_iff.mp hposition
    rw [String.length_toList] at hout
    exact occurrences_of_length_lt (by omega)
  | some low =>
    obtain ⟨rfl, hlow⟩ := position?_eq_some_iff.mp hposition
    rw [String.length_toList] at hlow
    rw [indexFrom?_natCast hlow, Option.map_eq_none_iff, occurrence?_eq_none_iff] at h
    refine Set.eq_empty_of_forall_notMem fun i hi => ?_
    obtain ⟨n, -, hstarts, hlength⟩ := (mem_occurrences_natCast_iff hlow).mp hi
    exact h n hlength hstarts

end Searches

namespace TextMethod

variable {s part : String} {start stop : Int}

theorem slice_of_partOf (method : TextMethod) (h : PartOf s start stop part) :
    method.slice s.toList start stop = answer (.string part) := by
  obtain ⟨hstart, horder, hstop⟩ := exists_partOf_iff.mp ⟨part, h⟩
  obtain ⟨-, rfl, hstarts⟩ := partOf_iff.mp h
  have hlow : position? s.toList.length start = some start.toNat :=
    position?_eq_some_iff.mpr ⟨by omega, by rw [String.length_toList]; omega⟩
  have hhigh : position? s.toList.length (start + part.length) =
      some (start.toNat + part.toList.length) :=
    position?_eq_some_iff.mpr ⟨by rw [String.length_toList]; omega,
      by rw [String.length_toList, String.length_toList]; omega⟩
  simp only [slice, hlow, hhigh]
  rw [if_pos (Nat.le_add_right _ _), Nat.add_sub_cancel_left,
    ← List.prefix_iff_eq_take.mp hstarts, answerText, String.ofList_toList]

theorem slice_of_not_partOf (method : TextMethod) (h : ¬ ∃ part, PartOf s start stop part) :
    ∃ index, (index = start ∨ index = stop) ∧
      method.slice s.toList start stop = method.outOfRange index := by
  rw [exists_partOf_iff] at h
  rw [slice]
  cases hlow : position? s.toList.length start with
  | none => exact ⟨start, .inl rfl, rfl⟩
  | some low =>
    cases hhigh : position? s.toList.length stop with
    | none => exact ⟨stop, .inr rfl, rfl⟩
    | some high =>
      obtain ⟨rfl, -⟩ := position?_eq_some_iff.mp hlow
      obtain ⟨rfl, hle⟩ := position?_eq_some_iff.mp hhigh
      rw [String.length_toList] at hle
      exact ⟨high, .inr rfl, if_neg (by omega)⟩

end TextMethod

/-! ### Calls -/

/-- Texts have the methods of texts. -/
def Registry.HasTextMethods (registry : Registry) : Prop :=
  ∀ method : TextMethod, registry.ownMethod? DataType.string.name method.name = some (.text method)

theorem Registry.hasTextMethods_builtin : builtin.HasTextMethods := by
  intro method
  cases method <;> rfl

namespace Expr

open TextMethod

/-- Whichever expressions come to the receiver and the arguments, the call comes to an operand and
reports warnings. -/
def CallGives (env : Environment) (receiver : Value) (name : String) (args : List Value)
    (operand : Operand) (warnings : List Warning) : Prop :=
  ∀ e exprs machine after, ComeTo env (e :: exprs) machine (receiver :: args) after →
    completion ((callMethod e name exprs).evaluate env) machine =
      (.ok (.resolved operand), warnings.foldl Machine.warn after)

variable {env : Environment} {s t : String} {args : List Value} {operand : Operand}
  {warnings : List Warning}

theorem stack_foldl_warn (warnings : List Warning) (machine : Machine) :
    (warnings.foldl Machine.warn machine).stack = machine.stack := by
  induction warnings generalizing machine with
  | nil => rfl
  | cons warning rest ih => exact ih _

theorem callGives_of_apply [env.registry.EvaluatesArguments]
    (hregistry : env.registry.HasTextMethods) (method : TextMethod)
    (hcount : method.arity.admits args.length)
    (h : ∀ call machine, method.apply call s args machine =
      .ok operand (warnings.foldl Machine.warn machine)) :
    CallGives env (.string s) method.name args operand warnings := by
  intro e exprs machine after hcome
  have hstack := hcome.stack_eq
  obtain ⟨value, rest, middle, hvalues, hreceiver, hargs⟩ := comeTo_cons_iff.mp hcome
  obtain ⟨rfl, rfl⟩ := List.cons.inj hvalues
  refine completion_evaluate_of_result ?_ ((stack_foldl_warn _ _).trans hstack)
  have hmethod : env.registry.method? env.catalog "String" method.name = some (.text method) :=
    Registry.method?_of_ownMethod? env.catalog (by decide) (hregistry method)
  have hcheck : ∀ machine, (e.callOf env method.name exprs none).checkCount method.arity machine =
      .ok () machine := by
    intro machine
    rw [Call.checkCount, if_pos (by simpa [callOf, ← hargs.length_eq] using hcount)]
    rfl
  have hcall : env.callMethod (.string s) (e.callOf env method.name exprs none) middle =
      .ok operand (warnings.foldl Machine.warn after) := by
    have hdispatch : env.callMethod (.string s) (e.callOf env method.name exprs none) = _ :=
      Environment.callMethod_of_method? rfl hmethod
    rw [hdispatch]
    simp only [Method.evaluate, TextMethod.evaluate, Value.string?, Bind.bind, EStateM.bind, hcheck]
    rw [callOf, ← arguments_eq_map]
    simp only [hargs.values_arguments, h]
  rw [callMethod, result, operandOf_eq, arguments_eq_map]
  simp only [Bind.bind, EStateM.bind, result_of_completion hreceiver]
  exact hcall

theorem integer_of_toInt64? {value : Value} {n : Int64} (h : value.toInt64? = some n)
    (call : Call) :
    call.integer value = pure n.toInt := by
  have hintegral : value.isIntegral := by
    cases value <;> first | rfl | cases h
  rw [Call.integer, if_pos hintegral, h]

section Texts

variable (hregistry : env.registry.HasTextMethods) {u v w : Value} {b stop : Int64} {part : String}

include hregistry

theorem callGives_slice [env.registry.EvaluatesArguments] (hv : v.toInt64? = some b)
    (hw : w.toInt64? = some stop)
    (h : ∀ machine, substring.slice s.toList b.toInt stop.toInt machine =
      .ok operand (warnings.foldl Machine.warn machine)) :
    CallGives env (.string s) "substring" [v, w] operand warnings := by
  refine callGives_of_apply hregistry substring rfl fun call machine => ?_
  have happly : substring.apply call s [v, w] = call.integer v >>= fun start =>
      call.integer w >>= fun stop => substring.slice s.toList start stop := rfl
  rw [happly, integer_of_toInt64? hv, integer_of_toInt64? hw, pure_bind, pure_bind, h]

theorem callGives_substring [env.registry.EvaluatesArguments] (hv : v.toInt64? = some b)
    (hw : w.toInt64? = some stop) (h : PartOf s b.toInt stop.toInt part) :
    CallGives env (.string s) "substring" [v, w] (.value (.string part)) [] := by
  refine callGives_slice hregistry hv hw fun machine => ?_
  rw [slice_of_partOf _ h]
  rfl

theorem callGives_back [env.registry.EvaluatesArguments] (hv : v.toInt64? = some b)
    (h : PartOf s b.toInt s.length part) :
    CallGives env (.string s) "substring" [v] (.value (.string part)) [] := by
  refine callGives_of_apply hregistry substring rfl fun call machine => ?_
  have happly : substring.apply call s [v] = call.integer v >>= fun start =>
      substring.slice s.toList start s.toList.length := rfl
  rw [happly, integer_of_toInt64? hv, pure_bind, String.length_toList, slice_of_partOf _ h]
  rfl

theorem callGives_indexOf [env.registry.EvaluatesArguments] (hu : text? u = some t)
    (hv : v.toInt64? = some b) :
    CallGives env (.string s) "indexOf" [u, v]
      (.value
        (((indexFrom? s.toList t.toList (max b.toInt 0)).map count).getD (.int (-1)))) [] := by
  refine callGives_of_apply hregistry indexOf rfl fun call machine => ?_
  have happly : indexOf.apply call s [u, v] = indexOf.text u >>= fun needle =>
      call.integer v >>= fun start =>
        answer
          (((indexFrom? s.toList needle.toList (max start 0)).map count).getD (.int (-1))) := by
    refine bind_congr fun needle => bind_congr fun start => ?_
    beta_reduce
    cases indexFrom? s.toList needle.toList (max start 0) <;> rfl
  have htext : indexOf.text u = pure t := by rw [text, hu]
  rw [happly, htext, integer_of_toInt64? hv, pure_bind, pure_bind]
  rfl

/-- A substring between two positions in order is the part between them, and between others it is
not resolved and one of them is reported. What stands before a position and what stands behind it
make up the text. The index of a text is the least position at which it occurs, if it occurs at all;
behind the end not even the empty text does. -/
theorem substring_indexOf_exact [env.registry.EvaluatesArguments] (s : String) :
    (∀ v w (b stop : Int64), v.toInt64? = some b → w.toInt64? = some stop →
      (∀ part, PartOf s b.toInt stop.toInt part →
        CallGives env (.string s) "substring" [v, w] (.value (.string part)) []) ∧
      ((∃ part, PartOf s b.toInt stop.toInt part) ↔
        0 ≤ b.toInt ∧ b.toInt ≤ stop.toInt ∧ stop.toInt ≤ s.length) ∧
      ((¬ ∃ part, PartOf s b.toInt stop.toInt part) →
        ∃ index, (index = b.toInt ∨ index = stop.toInt) ∧
          CallGives env (.string s) "substring" [v, w] .unresolved
            [.indexOutOfRange "substring" index])) ∧
    (∀ zero v (b : Int64), zero.toInt64? = some 0 → v.toInt64? = some b →
      0 ≤ b.toInt → b.toInt ≤ s.length →
      ∃ front back, front ++ back = s ∧
        CallGives env (.string s) "substring" [zero, v] (.value (.string front)) [] ∧
        CallGives env (.string s) "substring" [v] (.value (.string back)) []) ∧
    (s.length < 2 ^ 31 → ∀ u v t (start : Int64), text? u = some t → v.toInt64? = some start →
      ∃ index : Int32,
        CallGives env (.string s) "indexOf" [u, v] (.value (.int index)) [] ∧
        (index.toInt = -1 ↔ Occurrences s t (max start.toInt 0) = ∅) ∧
        (index.toInt ≠ -1 → IsLeast (Occurrences s t (max start.toInt 0)) index.toInt) ∧
        (s.length < start.toInt → index.toInt = -1) ∧
        (t = "" → start.toInt ≤ s.length → index.toInt = max start.toInt 0)) := by
  refine ⟨fun v w b stop hv hw =>
    ⟨fun part => callGives_substring hregistry hv hw, exists_partOf_iff,
    fun hnone => ?_⟩, fun zero v b hzero hv hb hle => ?_, fun hshort u v t start hu hv => ?_⟩
  · obtain ⟨index, hindex, hslice⟩ := slice_of_not_partOf substring hnone
    refine ⟨index, hindex, callGives_slice hregistry hv hw fun machine => ?_⟩
    rw [hslice]
    rfl
  · obtain ⟨front, hfront⟩ := exists_partOf_iff.mpr ⟨le_refl 0, hb, hle⟩
    obtain ⟨back, hback⟩ := exists_partOf_iff.mpr ⟨hb, hle, le_refl (s.length : Int)⟩
    exact ⟨front, back, append_of_partOf hfront hback,
      callGives_substring hregistry hzero hv hfront, callGives_back hregistry hv hback⟩
  · have hgives : CallGives env (.string s) "indexOf" [u, v] _ [] :=
      callGives_indexOf hregistry hu hv
    have hempty : t = "" → start.toInt ≤ s.length →
        IsLeast (Occurrences s t (max start.toInt 0)) (max start.toInt 0) := by
      rintro rfl hle
      exact isLeast_occurrences_empty (le_max_right _ _) (max_le hle (Int.natCast_nonneg _))
    cases hfound : indexFrom? s.toList t.toList (max start.toInt 0) with
    | none =>
      have hnone := occurrences_of_indexFrom? (le_max_right _ _) hfound
      rw [hfound] at hgives
      refine ⟨-1, hgives, ⟨fun _ => hnone, fun _ => rfl⟩, fun h => absurd rfl h, fun _ => rfl,
        fun ht hle => ?_⟩
      rw [hnone] at hempty
      exact absurd (hempty ht hle).1 (Set.notMem_empty _)
    | some n =>
      have hleast := isLeast_of_indexFrom? hfound
      have hn : (Int32.ofNat n).toInt = n := by
        obtain ⟨-, ⟨-, hle⟩, -⟩ := mem_occurrences_iff.mp hleast.1
        exact Int32.toInt_ofNat_of_lt (by omega)
      have hsome : Occurrences s t (max start.toInt 0) ≠ ∅ :=
        Set.nonempty_iff_ne_empty.mp ⟨_, hleast.1⟩
      rw [hfound] at hgives
      refine ⟨Int32.ofNat n, hgives, ⟨fun h => ?_, fun h => absurd h hsome⟩, fun _ => ?_,
        fun h => ?_, fun ht hle => ?_⟩
      · omega
      · rwa [hn]
      · exact absurd (occurrences_of_length_lt (lt_of_lt_of_le h (le_max_left _ _))) hsome
      · rw [hn]
        exact hleast.unique (hempty ht hle)

end Texts

/-- Characters of one to four bytes. -/
def mixed : String := "aé€𝄞é"

/-- Positions of several kinds, and a search for one character. -/
theorem substring_indexOf_exact_mixed :
    let env : Environment := ⟨.empty, .builtin, .detached⟩
    let machine := Machine.start ⟨"this", [], [], [], none⟩ .empty default
    let call := fun name args =>
      completion
        ((callMethod (literal (.string mixed)) name (args.map literal)).evaluate env) machine
    env.registry.HasTextMethods ∧
      call "substring" [.long 1, .byte 4] =
        (.ok (.resolved (.value (.string "é€𝄞"))), machine) ∧
      call "indexOf" [.char 'é', .bigInteger 2] = (.ok (.resolved (.value (.int 4))), machine) := by
  intro env machine call
  have hregistry : env.registry.HasTextMethods := Registry.hasTextMethods_builtin
  obtain ⟨hsubstring, -, hindexOf⟩ := substring_indexOf_exact hregistry mixed
  have hcome : ∀ args : List Value, args.length = 2 →
      ComeTo env (literal (.string mixed) :: args.map literal) machine (.string mixed :: args)
        machine := by
    intro args hlength
    obtain ⟨v, w, rfl⟩ := List.length_eq_two.mp hlength
    rfl
  refine ⟨hregistry, ?_, ?_⟩
  · obtain ⟨hpart, -, -⟩ := hsubstring (.long 1) (.byte 4) 1 4 rfl rfl
    exact hpart "é€𝄞" ⟨"a", "é", rfl, rfl, rfl⟩ _ _ machine machine (hcome _ rfl)
  · obtain ⟨index, hgives, hnone, hleast, -⟩ :=
      hindexOf (by decide) (.char 'é') (.bigInteger 2) "é" 2 rfl rfl
    have hstart : max (2 : Int64).toInt 0 = 2 := by decide
    rw [hstart] at hnone hleast
    have hfound : IsLeast (Occurrences mixed "é" 2) (4 : Nat) := isLeast_of_indexFrom? (by decide)
    have hindex : index.toInt = (4 : Int32).toInt :=
      (hleast fun h => Set.notMem_empty _ (hnone.mp h ▸ hfound.1)).unique hfound
    obtain rfl : index = 4 := Int32.toInt_inj.mp hindex
    exact hgives _ _ machine machine (hcome _ rfl)

end Expr

end ObjectQuery
