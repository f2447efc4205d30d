import ObjectQuery.Proofs.Json.Reader
import ObjectQuery.Proofs.Number.Rounding
import ObjectQuery.Proofs.Value.Tagged

/-!
What is known of values that are read from a document, whoever wrote it. Main statement: all of them
are storable.
-/

namespace ObjectQuery

open Json

namespace Binary

theorem isFinite_ofInt {f : BinaryFormat} (hprecision : 0 < f.precision) {n : Int} {k : ℕ}
    (hn : n.natAbs < 2 ^ k) (hk : k + f.fractionBits < f.magnitudeBits) :
    (ofInt n : Binary f).isFinite := by
  have hfits : f.Fits (roundUnits f (n.natAbs * Nat.pow 2 f.fractionBits) 1) := by
    rcases Nat.eq_zero_or_pos n.natAbs with hzero | hpos
    · have hround := roundUnits_mul f.fits_zero Nat.one_pos
      rw [Nat.mul_zero] at hround
      rw [hzero, Nat.zero_mul, hround]
      exact f.fits_zero
    · have hone : 0 < n.natAbs * Nat.pow 2 f.fractionBits := Nat.mul_pos hpos (Nat.two_pow_pos _)
      refine (BinaryFormat.roundsTo_roundUnits hprecision Nat.one_pos hone).fits hprecision ?_
      have hlt : n.natAbs * Nat.pow 2 f.fractionBits < 2 ^ (k + f.fractionBits) := by
        rw [pow_add]
        exact Nat.mul_lt_mul_of_pos_right hn (Nat.two_pow_pos _)
      have := (Nat.log2_lt hone.ne').mpr hlt
      rw [Nat.div_one]
      omega
  rw [ofInt, ofRatio, ofUnits, dif_pos hfits]
  rfl

theorem isFinite_of_binary? {json : Json} (h : json.NumbersInRange) {x : Double}
    (hx : json.binary? .double = some x) : x.isFinite := by
  cases json with
  | number n =>
    have hrange := h.self n rfl
    cases n with
    | integer n =>
      obtain rfl := Option.some.inj hx
      obtain ⟨hlow, hhigh⟩ := hrange
      have hmin : Int64.minValue.toInt = -2 ^ 63 := by decide
      have hmax : (UInt64.size : Int) = 2 ^ 64 := by decide
      have habs : n.natAbs < 2 ^ 64 := by omega
      exact isFinite_ofInt (by decide) habs (by decide)
    | double y =>
      obtain rfl := Option.some.inj hx
      rw [convert_self hrange]
      exact hrange
    | single y =>
      obtain rfl := Option.some.inj hx
      exact isFinite_convert BinaryFormat.single_widens_double hrange
  | _ => cases hx

end Binary

namespace Decimal

theorem scaleFits_of_ofMantissa? {mantissa : List Char} {exponent : Int} {d : Decimal}
    (h : ofMantissa? mantissa exponent = some d) : scaleFits d.scale := by
  obtain ⟨unscaled, -, h⟩ := Option.bind_eq_some_iff.mp h
  simp only at h
  split at h
  · obtain rfl := Option.some.inj h
    assumption
  · cases h

theorem scaleFits_of_ofString? {text : String} {d : Decimal} (h : ofString? text = some d) :
    scaleFits d.scale := by
  rw [ofString?, ofChars?] at h
  simp only at h
  split at h
  · exact scaleFits_of_ofMantissa? h
  · obtain ⟨exponent, -, h⟩ := Option.bind_eq_some_iff.mp h
    exact scaleFits_of_ofMantissa? h

theorem halve_snd_le (fuel units places : ℕ) :
    (ofBinaryExact?.halve fuel units places).2 ≤ places := by
  induction fuel generalizing units places with
  | zero => exact le_rfl
  | succ fuel ih =>
    rw [ofBinaryExact?.halve]
    split
    · exact (ih _ _).trans (Nat.sub_le ..)
    · exact le_rfl

theorem scaleFits_of_ofBinaryExact? {x : Double} {d : Decimal} (h : ofBinaryExact? x = some d) :
    scaleFits d.scale := by
  cases x with
  | nan | infinite => cases h
  | finite negative units fits =>
    obtain rfl := Option.some.inj h
    have hplaces := halve_snd_le BinaryFormat.double.fractionBits units
      BinaryFormat.double.fractionBits
    have hmin : Int64.minValue.toInt ≤ 0 := by decide
    have hmax : (BinaryFormat.double.fractionBits : Int) ≤ Int64.maxValue.toInt := by decide
    have hscale : ∀ d : Decimal, (if negative then d.neg else d).scale = d.scale := by
      intro d
      split <;> rfl
    simp only [hscale, scaleFits, Bool.and_eq_true, decide_eq_true_eq]
    omega

theorem scaleFits_of_ofDecimalJson? {json : Json} {d : Decimal} (h : ofDecimalJson? json = some d) :
    scaleFits d.scale := by
  unfold ofDecimalJson? at h
  split at h
  · exact scaleFits_of_ofString? h
  · obtain rfl := Option.some.inj h
    rfl
  · exact scaleFits_of_ofBinaryExact? h
  · cases h

end Decimal

namespace Value

open Reading

variable {value : Value} {json : Json}

theorem all_of_children_eq_nil {p : Value → Prop} (hself : p value) (hleaf : value.children = []) :
    value.All p :=
  ⟨hself, by simp [hleaf]⟩

theorem numbersInRange_of_variant? {tag : String} {body : Option Json} (h : json.NumbersInRange)
    (hvariant : json.variant? = some (tag, body)) : ∀ json ∈ body, json.NumbersInRange := by
  unfold variant? at hvariant
  split at hvariant
  · cases hvariant
    simp
  · cases hvariant
    rintro json ⟨⟩
    exact (all_object.mp h).2 _ (List.mem_singleton_self _)
  · cases hvariant

theorem numbersInRange_of_record? {shape : List Field} {fields : List (Option Json)}
    (h : json.NumbersInRange) (hrecord : json.record? shape = some fields) :
    ∀ field, some field ∈ fields → field.NumbersInRange :=
  fun _ hfield => h.child _ (mem_children_of_record? hrecord hfield)

theorem numbersInRange_of_items? {items : List Json} (h : json.NumbersInRange)
    (hitems : json.items? = some items) : ∀ item ∈ items, item.NumbersInRange := by
  cases json <;> cases hitems
  exact (all_array.mp h).2

theorem numbersInRange_of_members? {members : List (String × Json)} (h : json.NumbersInRange)
    (hmembers : json.members? = some members) : ∀ member ∈ members, member.2.NumbersInRange := by
  cases json <;> cases hmembers
  exact (all_object.mp h).2

theorem yields_readEntry {fuel : ℕ}
    (h : ∀ json, json.NumbersInRange → Yields (readTagged fuel json) (All IsStorable))
    {entry : Json} (hentry : entry.NumbersInRange) : Yields (readEntry fuel entry)
      fun found => found.1.All IsStorable ∧ found.2.All IsStorable := by
  unfold readEntry
  split
  · have hitems := (all_array.mp hentry).2
    rw [List.forall_mem_cons, List.forall_mem_singleton] at hitems
    exact Yields.bind (h _ hitems.1) fun key hkey => Yields.bind (h _ hitems.2)
      fun value hvalue => Yields.pure ⟨hkey, hvalue⟩
  · exact Yields.failure

theorem yields_readObject {fuel : ℕ}
    (h : ∀ json, json.NumbersInRange → Yields (readTagged fuel json) (All IsStorable)) {body : Json}
    (hbody : body.NumbersInRange) : Yields (readObject fuel body) (All IsStorable) := by
  refine Yields.bind (Yields.lift fun _ => numbersInRange_of_record? hbody) fun found hfound => ?_
  split
  · rename_i typeName fields identity
    have hmembers : Yields (withDefault (fun json => liftM json.members?) [] fields)
        fun members => ∀ member ∈ members, member.2.NumbersInRange :=
      Yields.withDefault (by simp) fun json hjson => Yields.lift fun _ =>
        numbersInRange_of_members? (hfound json (by simp_all))
    refine Yields.bind hmembers fun members hmembers => ?_
    have hfields : Yields (members.mapM fun member => return (member.1, ← readTagged fuel member.2))
        fun found => ∀ field ∈ found, field.2.All IsStorable :=
      Yields.mapM fun member hmember => Yields.bind (h _ (hmembers member hmember))
        fun value hvalue => Yields.pure hvalue
    refine Yields.bind hfields fun fields hfields => ?_
    have hidentity : Yields (Json.optional (readTagged fuel) identity)
        fun found => ∀ value ∈ found, value.All IsStorable :=
      Yields.optional fun json hjson => h _ (hfound json (by simp_all))
    refine Yields.bind hidentity fun identity hidentity => ?_
    refine Yields.bind Yields.any fun id _ => Yields.pure ?_
    exact all_object_iff.mpr ⟨Bindings.nodup_ofList _,
      fun field hfield => hfields field (Bindings.mem_ofList hfield), hidentity⟩
  · exact Yields.failure

theorem yields_readTagged (fuel : ℕ) (h : json.NumbersInRange) :
    Yields (readTagged fuel json) (All IsStorable) := by
  induction fuel generalizing json with
  | zero => exact Yields.failure
  | succ fuel ih =>
    rw [readTagged]
    refine Yields.bind (Yields.lift fun _ => numbersInRange_of_variant? h) ?_
    rintro ⟨tag, body⟩ hbody
    simp only at hbody ⊢
    split
    case h_4 =>
      split
      · exact Yields.pure (all_of_children_eq_nil trivial rfl)
      · exact Yields.failure
    case h_5 | h_6 | h_7 | h_8 | h_9 | h_10 =>
      exact Yields.bind Yields.any
        fun _ _ => Yields.pure (all_of_children_eq_nil trivial rfl)
    case h_11 =>
      refine Yields.bind (Yields.lift fun _ => Binary.isFinite_of_binary? (hbody _ rfl)) ?_
      exact fun x hx => Yields.pure (all_of_children_eq_nil hx rfl)
    case h_12 =>
      refine Yields.bind (Yields.lift fun _ => Decimal.scaleFits_of_ofDecimalJson?) ?_
      exact fun d hd => Yields.pure (all_of_children_eq_nil hd rfl)
    case h_14 items | h_15 items | h_16 items =>
      refine Yields.bind (Yields.mapM fun item hitem => ih ?_) fun found hfound =>
        Yields.pure ⟨trivial, hfound⟩
      exact (all_array.mp (hbody _ rfl)).2 item hitem
    case h_17 entries =>
      have hentries := (all_array.mp (hbody _ rfl)).2
      have hread : ∀ entry ∈ entries, Yields (readEntry fuel entry)
          fun found => found.1.All IsStorable ∧ found.2.All IsStorable :=
        fun entry hentry => yields_readEntry (fun _ => ih) (hentries entry hentry)
      refine Yields.bind (Yields.mapM hread) fun found hfound => Yields.pure ?_
      exact all_map_iff.mpr ⟨trivial, hfound⟩
    case h_18 => exact yields_readObject (fun _ => ih) (hbody _ rfl)
    case h_20 => exact Yields.failure
    all_goals exact Yields.pure (all_of_children_eq_nil trivial rfl)

theorem yields_ofTagged? (h : json.NumbersInRange) : Yields (ofTagged? json) (All IsStorable) :=
  yields_readTagged _ h

/-! ### What is written -/

theorem legible_integer {n : Int} (hlow : -2 ^ 63 ≤ n) (hhigh : n < 2 ^ 63) :
    (ofInt n).All (Legible JsonNumber.InRange) := by
  have hmin : Int64.minValue.toInt = -2 ^ 63 := by decide
  have hmax : (UInt64.size : Int) = 2 ^ 64 := by decide
  have hrange : (JsonNumber.integer n).InRange := by
    constructor <;> omega
  exact legible_of_leaf hrange rfl

theorem legible_limbs (n : Int) : (limbsJson n).All (Legible JsonNumber.InRange) := by
  have hsign : -1 ≤ n.sign ∧ n.sign ≤ 1 := by
    rcases Int.sign_trichotomy n with h | h | h <;> rw [h] <;> decide
  rw [limbsJson, legible_array, List.forall_mem_cons, List.forall_mem_singleton, legible_array,
    List.forall_mem_map]
  refine ⟨legible_integer (by omega) (by omega), fun limb hlimb => ?_⟩
  have hlt : limb < 2 ^ 32 := lt_of_mem_limbs hlimb
  exact legible_integer (by omega) (by omega)

theorem legible_toTagged (h : value.All IsStorable) :
    value.toTagged.All (Legible JsonNumber.InRange) := by
  have htagged : ∀ {tag : String} {body : Json}, body.All (Legible JsonNumber.InRange) →
      (tagged tag body).All (Legible JsonNumber.InRange) := fun hbody =>
    legible_object.mpr (by simpa using hbody)
  have hitems : ∀ {items : List Value}, (∀ item ∈ items,
      item.toTagged.All (Legible JsonNumber.InRange)) →
        (Json.array (toTaggedItems items)).All (Legible JsonNumber.InRange) := fun h => by
    rwa [toTaggedItems_eq_map, legible_array, List.forall_mem_map]
  induction h with
  | @node value hself hbelow ih =>
    cases value with
    | null => exact legible_of_leaf trivial rfl
    | boolean | char | decimal | string | type => exact htagged (legible_of_leaf trivial rfl)
    | byte n =>
      have := n.le_toInt
      have := n.toInt_lt
      exact htagged (legible_integer (by omega) (by omega))
    | short n =>
      have := n.le_toInt
      have := n.toInt_lt
      exact htagged (legible_integer (by omega) (by omega))
    | int n =>
      have := n.le_toInt
      have := n.toInt_lt
      exact htagged (legible_integer (by omega) (by omega))
    | long n =>
      have := n.le_toInt
      have := n.toInt_lt
      exact htagged (legible_integer (by omega) (by omega))
    | bigInteger n => exact htagged (legible_limbs n)
    | float x =>
      refine htagged ?_
      rw [ofSingle]
      split
      · exact legible_of_leaf ‹_› rfl
      · exact legible_of_leaf trivial rfl
    | double x =>
      refine htagged ?_
      rw [ofDouble]
      split
      · exact legible_of_leaf ‹_› rfl
      · exact legible_of_leaf trivial rfl
    | array items | list items | set items => exact htagged (hitems ih)
    | map entries =>
      refine htagged ?_
      rw [toTaggedEntries_eq_map, legible_array, List.forall_mem_map]
      refine fun entry hentry => ?_
      rw [legible_array, List.forall_mem_cons, List.forall_mem_singleton]
      exact ⟨ih _ (List.mem_append_left _ (List.mem_map_of_mem hentry)),
        ih _ (List.mem_append_right _ (List.mem_map_of_mem hentry))⟩
    | object id typeName fields identity =>
      refine htagged (legible_object.mpr ?_)
      rw [toTaggedFields_eq_map, toTaggedIdentity_eq]
      simp only [List.forall_mem_cons, legible_object, List.forall_mem_map]
      refine ⟨legible_of_leaf trivial rfl, fun field hfield => ?_, ?_, by simp⟩
      · exact ih _ (List.mem_append_left _ (List.mem_map_of_mem hfield))
      · exact legible_optional fun value hvalue =>
          ih _ (List.mem_append_right _ (Option.mem_toList.mpr hvalue))

end Value

end ObjectQuery
