import ObjectQuery.Proofs.Cursor.Composition
import ObjectQuery.Proofs.Cursor.KeyOrder

/-!
What a sort gives. Main statement: if the keys of all values are coherent numbers or no numbers, the
values come out in the order of their keys, and those that tie on every key come out as they went
in.
-/

namespace ObjectQuery

/-! ### The order of rows -/

namespace SortKey

theorem lexicographic_swap (keys : List SortKey) (a b : List Value) :
    lexicographic keys b a = (lexicographic keys a b).swap := by
  induction keys generalizing a b with
  | nil => rfl
  | cons key keys ih =>
    cases a with
    | nil => cases b <;> rfl
    | cons x a =>
      cases b with
      | nil => rfl
      | cons y b =>
        rw [lexicographic, lexicographic, order_swap key x y, ih a b, Ordering.swap_then]

theorem lexicographic_trans {pool : List Value} (h : Coherent pool) (keys : List SortKey)
    {a b c : List Value} (ha : a.length = keys.length) (hb : b.length = keys.length)
    (hc : c.length = keys.length)
    (hpool : ∀ value, value ∈ a ∨ value ∈ b ∨ value ∈ c → value ∈ pool)
    (hab : (lexicographic keys a b).isLE) (hbc : (lexicographic keys b c).isLE) :
    (lexicographic keys a c).isLE := by
  induction keys generalizing a b c with
  | nil => rfl
  | cons key keys ih =>
    obtain ⟨x, a, rfl⟩ := List.exists_cons_of_length_eq_add_one ha
    obtain ⟨y, b, rfl⟩ := List.exists_cons_of_length_eq_add_one hb
    obtain ⟨z, c, rfl⟩ := List.exists_cons_of_length_eq_add_one hc
    have hx : x ∈ pool := hpool x (by simp)
    have hy : y ∈ pool := hpool y (by simp)
    have hz : z ∈ pool := hpool z (by simp)
    rw [lexicographic, Ordering.isLE_then_iff_and] at hab hbc ⊢
    obtain ⟨hxy, hab⟩ := hab
    obtain ⟨hyz, hbc⟩ := hbc
    refine ⟨key.order_trans h hx hy hz hxy hyz, ?_⟩
    by_cases hlt : key.order x z = .lt
    · exact .inl hlt
    right
    -- The first values do not tell the outer rows apart, so neither do those in between.
    have hzx : (key.order z x).isLE := by
      rw [key.order_swap x z]
      cases hxz : key.order x z <;> first | rfl | exact absurd hxz hlt
    have hyx : (key.order y x).isLE := key.order_trans h hy hz hx hyz hzx
    have hzy : (key.order z y).isLE := key.order_trans h hz hx hy hzx hxy
    rw [key.order_swap x y] at hyx
    rw [key.order_swap y z] at hzy
    have hab : (lexicographic keys a b).isLE := by
      rcases hab with hxy' | hab
      · rw [hxy'] at hyx
        cases hyx
      · exact hab
    have hbc : (lexicographic keys b c).isLE := by
      rcases hbc with hyz' | hbc
      · rw [hyz'] at hzy
        cases hzy
      · exact hbc
    refine ih (by simpa using ha) (by simpa using hb) (by simpa using hc) ?_ hab hbc
    rintro value (hvalue | hvalue | hvalue)
    · exact hpool value (.inl (List.mem_cons_of_mem x hvalue))
    · exact hpool value (.inr (.inl (List.mem_cons_of_mem y hvalue)))
    · exact hpool value (.inr (.inr (List.mem_cons_of_mem z hvalue)))

/-! ### Keys that are coherent whatever stands beside them -/

/-- A value that is no binary number, or a finite double. -/
def Plain (value : Value) : Prop :=
  (∀ x, value ≠ .float x) ∧ ∀ x, value = .double x → x.isFinite

theorem coherent_of_plain {pool : List Value} (h : ∀ value ∈ pool, Plain value) :
    Coherent pool where
  digits := by
    intro exact _ _ x _ hx
    exact absurd rfl ((h _ hx).1 x)
  clear := by
    intro exact _ _ other hother
    have hfinite : ∀ x, other.binary? = some x → x.isFinite := by
      intro x hx
      cases other with
      | float y => exact absurd rfl ((h _ hother).1 y)
      | double y =>
        obtain rfl := Option.some.inj hx
        exact (h _ hother).2 y rfl
      | _ => cases hx
    constructor
    · intro negative hinfinite
      cases hfinite _ hinfinite
    · intro hnan
      cases hfinite _ hnan

end SortKey

/-! ### Sorting by an order among the elements -/

namespace SortKey

variable {α : Type} {order : α → α → Ordering} {xs : List α}

theorem mergeSort_attach (xs : List α) :
    (xs.attach.mergeSort fun a b => (order a.val b.val).isLE).map Subtype.val =
      xs.mergeSort (order · · |>.isLE) := by
  have hmap := List.map_mergeSort (r := fun a b : {x // x ∈ xs} => (order a.val b.val).isLE)
    (s := (order · · |>.isLE)) (f := Subtype.val) (l := xs.attach) fun _ _ _ _ => rfl
  rw [hmap, List.attach_map_subtype_val]

theorem pairwise_mergeSort_of_mem
    (h : Std.TransCmp fun a b : {x // x ∈ xs} => order a.val b.val) :
    (xs.mergeSort (order · · |>.isLE)).Pairwise (order · · |>.isLE) := by
  rw [← mergeSort_attach xs, List.pairwise_map]
  have htotal : ∀ a b : {x // x ∈ xs}, (order a.val b.val).isLE || (order b.val a.val).isLE :=
    @isLE_total _ (fun a b : {x // x ∈ xs} => order a.val b.val) h
  exact @List.pairwise_mergeSort _ (fun a b : {x // x ∈ xs} => (order a.val b.val).isLE)
    (fun a b c => h.isLE_trans) htotal xs.attach

theorem filter_mergeSort_of_mem
    (h : Std.TransCmp fun a b : {x // x ∈ xs} => order a.val b.val) {z : α} (hz : z ∈ xs) :
    (xs.mergeSort (order · · |>.isLE)).filter (ties order z) = xs.filter (ties order z) := by
  have hattach : (xs.attach.mergeSort fun a b => (order a.val b.val).isLE).filter
      (fun b => ties order z b.val) = xs.attach.filter fun b => ties order z b.val :=
    @filter_mergeSort _ (fun a b : {x // x ∈ xs} => order a.val b.val) h ⟨z, hz⟩ xs.attach
  have hmap := congrArg (List.map Subtype.val) hattach
  rw [← mergeSort_attach xs, List.filter_map]
  refine hmap.trans ?_
  conv_rhs => rw [← List.attach_map_subtype_val xs, List.filter_map]
  rfl

end SortKey

/-! ### Evaluated keys -/

/-- The value of a resolution, with a warning where there is none. -/
def Expr.valueOf : Resolution → EStateM EvalError Machine Value
  | .resolved operand => return operand.valueOrNull
  | .unbound missing => do
    modify fun machine => machine.warn (.unboundVariable missing.name)
    return .null

theorem Expr.evaluateValue_eq_bind (env : Environment) (e : Expr) :
    e.evaluateValue env = e.evaluate env >>= valueOf := rfl

theorem Expr.steady_valueOf (resolution : Resolution) : Steady (valueOf resolution) := by
  cases resolution with
  | resolved operand => exact .pure _
  | unbound missing => exact Steady.bind (fun _ _ => ⟨_, _, _, .warn _⟩) fun _ => .pure _

namespace Cursor

variable {scope : Scope} {stage : Nat} {keys : List SortKey}

/-- What a key may have for its value at a candidate: the value that its expression resolves to, and
null if it is unresolved or stops on a variable without a value. -/
def IsKeyAt (scope : Scope) (candidate : Value) (key : SortKey) (value : Value) : Prop :=
  ∃ supply, match key.expr.resolution scope.environment
    (scope.context.setCandidate candidate) supply with
    | .ok (.resolved (.value found)) => value = found
    | .ok (.resolved .unresolved) | .ok (.unbound _) => value = .null
    | .error _ => False

theorem isKeyAt_of_evaluateValue [scope.environment.registry.EvaluatesArguments]
    {candidate value : Value} {key : SortKey} {supply : InstanceId}
    (h : (outcomeOf (key.expr.evaluateValue scope.environment)
      (scope.context.setCandidate candidate) supply).result = .ok value) :
    IsKeyAt scope candidate key value := by
  refine ⟨supply, ?_⟩
  have hsteady := key.expr.evaluate_steady scope.environment
  obtain ⟨after, hresult⟩ := hsteady.result_bind Expr.steady_valueOf
    (scope.context.setCandidate candidate) supply
  rw [Expr.evaluateValue_eq_bind, hresult, ← Expr.resolution] at h
  cases hresolution : key.expr.resolution scope.environment (scope.context.setCandidate candidate)
    supply with
  | error error =>
    rw [hresolution] at h
    cases h
  | ok resolution =>
    rw [hresolution] at h
    cases resolution with
    | resolved operand =>
      change (outcomeOf (pure operand.valueOrNull) _ after).result = _ at h
      rw [(Settles.pure _).outcomeOf_eq] at h
      cases operand <;> exact (Except.ok.inj h).symm
    | unbound missing =>
      change (outcomeOf (_ >>= fun _ => pure Value.null) _ after).result = _ at h
      rw [((Settles.warn (.unboundVariable missing.name)).bind (.pure Value.null)).outcomeOf_eq]
        at h
      exact (Except.ok.inj h).symm

theorem isKeyAt_of_mapM [scope.environment.registry.EvaluatesArguments] {candidate : Value}
    (keys : List SortKey) {found : List Value} {supply : InstanceId}
    (h : (outcomeOf (keys.mapM fun key => key.expr.evaluateValue scope.environment)
      (scope.context.setCandidate candidate) supply).result = .ok found) :
    List.Forall₂ (IsKeyAt scope candidate) keys found := by
  induction keys generalizing found supply with
  | nil =>
    rw [List.mapM_nil, (Settles.pure _).outcomeOf_eq] at h
    obtain rfl := Except.ok.inj h
    exact .nil
  | cons key keys ih =>
    have hrest : Steady (keys.mapM fun key => key.expr.evaluateValue scope.environment) :=
      .mapM (fun key => key.expr.evaluateValue_steady scope.environment) keys
    rw [List.mapM_cons] at h
    obtain ⟨after, hresult⟩ := (key.expr.evaluateValue_steady scope.environment).result_bind
      (fun value => hrest.bind fun values => .pure (value :: values))
      (scope.context.setCandidate candidate) supply
    rw [hresult] at h
    obtain ⟨value, hvalue, h⟩ := Except.bind_eq_ok.mp h
    obtain ⟨last, hresult⟩ := hrest.result_bind (fun values => .pure (value :: values))
      (scope.context.setCandidate candidate) after
    rw [hresult] at h
    obtain ⟨values, hvalues, h⟩ := Except.bind_eq_ok.mp h
    rw [(Settles.pure _).outcomeOf_eq] at h
    obtain rfl := Except.ok.inj h
    exact .cons (isKeyAt_of_evaluateValue hvalue) (ih hvalues)

theorem isKeyAt_of_keysOf [scope.environment.registry.EvaluatesArguments] {candidate : Value}
    {found : List Value} (h : keysOf scope stage keys candidate = .ok found) :
    List.Forall₂ (IsKeyAt scope candidate) keys found :=
  isKeyAt_of_mapM keys h

/-! ### What a sort gives -/

/-- The order of two values by their keys. -/
def keyOrder (scope : Scope) (stage : Nat) (keys : List SortKey) (a b : Value) : Ordering :=
  SortKey.lexicographic keys (keysAt scope stage keys a) (keysAt scope stage keys b)

/-- All keys of the values can be evaluated and are plain. -/
def PlainKeys (scope : Scope) (stage : Nat) (keys : List SortKey) (values : List Value) : Prop :=
  ∀ value ∈ values, ∃ found, keysOf scope stage keys value = .ok found ∧
    ∀ key ∈ found, SortKey.Plain key

theorem PlainKeys.keysAt [scope.environment.registry.EvaluatesArguments] {values : List Value}
    (h : PlainKeys scope stage keys values) {value : Value} (hvalue : value ∈ values) :
    keysOf scope stage keys value = .ok (keysAt scope stage keys value) ∧
      List.Forall₂ (IsKeyAt scope value) keys (keysAt scope stage keys value) ∧
      ∀ key ∈ keysAt scope stage keys value, SortKey.Plain key := by
  obtain ⟨found, hfound, hplain⟩ := h value hvalue
  have hkeysAt : Cursor.keysAt scope stage keys value = found := by
    rw [Cursor.keysAt, hfound]
    rfl
  rw [hkeysAt]
  exact ⟨hfound, isKeyAt_of_keysOf hfound, hplain⟩

theorem transCmp_lexicographic [scope.environment.registry.EvaluatesArguments] {values : List Value}
    (h : PlainKeys scope stage keys values) :
    Std.TransCmp fun a b : {found // found ∈ values.map (keysAt scope stage keys)} =>
      SortKey.lexicographic keys a.val b.val := by
  have hcoherent : SortKey.Coherent (values.flatMap (keysAt scope stage keys)) := by
    apply SortKey.coherent_of_plain
    intro key hkey
    obtain ⟨value, hvalue, hkey⟩ := List.mem_flatMap.mp hkey
    exact (h.keysAt hvalue).2.2 key hkey
  have hlength : ∀ found ∈ values.map (keysAt scope stage keys), found.length = keys.length := by
    intro found hfound
    obtain ⟨value, hvalue, rfl⟩ := List.mem_map.mp hfound
    exact (h.keysAt hvalue).2.1.length_eq.symm
  have hpool : ∀ found ∈ values.map (keysAt scope stage keys), ∀ key ∈ found,
      key ∈ values.flatMap (keysAt scope stage keys) := by
    intro found hfound key hkey
    obtain ⟨value, hvalue, rfl⟩ := List.mem_map.mp hfound
    exact List.mem_flatMap.mpr ⟨value, hvalue, hkey⟩
  apply SortKey.transCmp_of_mem
  · intro a _ b _
    rw [SortKey.lexicographic_swap keys b a]
  · intro a ha b hb c hc
    refine SortKey.lexicographic_trans hcoherent keys (hlength a ha) (hlength b hb)
      (hlength c hc) ?_
    rintro key (hkey | hkey | hkey)
    · exact hpool a ha key hkey
    · exact hpool b hb key hkey
    · exact hpool c hc key hkey

theorem transCmp_keyOrder [scope.environment.registry.EvaluatesArguments] {values : List Value}
    (h : PlainKeys scope stage keys values) :
    Std.TransCmp fun a b : {value // value ∈ values} => keyOrder scope stage keys a.val b.val := by
  have hrows := transCmp_lexicographic h
  have hmem : ∀ a : {value // value ∈ values}, keysAt scope stage keys a.val ∈
      values.map (keysAt scope stage keys) := fun a => List.mem_map_of_mem a.property
  refine { eq_swap := ?_, isLE_trans := ?_ }
  · intro a b
    exact hrows.eq_swap (a := ⟨_, hmem a⟩) (b := ⟨_, hmem b⟩)
  · intro a b c
    exact hrows.isLE_trans (a := ⟨_, hmem a⟩) (b := ⟨_, hmem b⟩) (c := ⟨_, hmem c⟩)

theorem gather_keyed [scope.environment.registry.EvaluatesArguments] {values : List Value}
    (h : PlainKeys scope stage keys values) :
    (gather (keyed scope stage keys) (values.map .ok)).1 =
      .ok (values.map fun value => ⟨keysAt scope stage keys value, value⟩) := by
  induction values with
  | nil => rfl
  | cons value rest ih =>
    have hvalue : keyed scope stage keys value = .ok ⟨keysAt scope stage keys value, value⟩ := by
      rw [keyed, (h.keysAt List.mem_cons_self).1]
    have hrest := ih fun other hother => h other (List.mem_cons_of_mem value hother)
    rw [List.map_cons, gather, hvalue]
    simp only [hrest, Except.map, List.map_cons]

/-- Over a cursor that gives values whose keys can be evaluated, and are neither singles nor doubles
that are not finite, a sort gives the same values: none stands behind one that comes after it by
their keys, the first key that tells them apart deciding, and values that tie on all keys stand as
they came, in either direction of the keys. A key that does not resolve counts as null. -/
theorem sort_orders_stably [scope.environment.registry.EvaluatesArguments] {child : Cursor}
    {kept : child.State → Prop} {below : child.State} {trace : Trace} {values : List Value}
    (hinit : child.init ⟨child.start, .empty⟩ = .ok () ⟨below, trace⟩)
    (hgives : child.Gives kept below (values.map .ok)) (hkeys : PlainKeys scope stage keys values) :
    ∃ (begun : Running) (sorted : List Value),
      (Running.start (sort scope stage keys child)).init = (.ok (), begun) ∧
      (∀ n, begun.answers n =
        (sorted.map (fun value => Except.ok (some value)) ++
          List.replicate n (Except.ok none)).take n) ∧
      sorted.Perm values ∧
      sorted.Pairwise (fun a b => keyOrder scope stage keys a b ≠ .gt) ∧
      (∀ z ∈ values, sorted.filter (keyOrder scope stage keys z · == .eq) =
        values.filter (keyOrder scope stage keys z · == .eq)) ∧
      ∀ value ∈ values,
        List.Forall₂ (IsKeyAt scope value) keys (keysAt scope stage keys value) := by
  have hrows := transCmp_lexicographic hkeys
  have hvalues := transCmp_keyOrder hkeys
  have hbegins : (Stage.sort keys).Begins scope stage kept below (values.map .ok) :=
    Stage.sort_begins keys hgives
  rw [Stage.Begins, Stage.opened, gather_keyed hkeys] at hbegins
  obtain ⟨state, added, hgiven, hsort⟩ := hbegins
  beta_reduce at hgiven
  rw [Stage.sorted_map keys (keysAt scope stage keys) values hrows] at hgiven
  refine ⟨_, values.mergeSort fun a b => (keyOrder scope stage keys a b).isLE,
    Running.init_eq_ok (hsort _ _ _ hinit), fun n => ?_, List.mergeSort_perm _ _, ?_,
    fun z hz => SortKey.filter_mergeSort_of_mem hvalues hz, fun value hvalue => ?_⟩
  · refine (Running.answers_of_gives hgiven n _).trans ?_
    rw [Event.answers, List.map_map]
    rfl
  · refine (SortKey.pairwise_mergeSort_of_mem hvalues).imp fun {a b} hle hgt => ?_
    rw [hgt] at hle
    cases hle
  · exact (hkeys.keysAt hvalue).2.1

/-- The greatest first and nulls before all; nothing is told apart by a variable without a value. -/
def greatestFirst : List SortKey :=
  [⟨.path none ["this"], true, .first⟩, ⟨.var "v", false, .last⟩]

theorem sort_orders_stably_greatestFirst :
    let scope := membershipScope []
    let values : List Value := [.int 1, .null, .int 2, .string "a", .long 2]
    let child := scan values
    child.init ⟨child.start, .empty⟩ = .ok () ⟨some values, .empty⟩ ∧
      child.Gives (fun _ => True) (some values) (values.map .ok) ∧
      PlainKeys scope 1 greatestFirst values ∧
      ∃ (begun : Running) (sorted : List Value),
        (Running.start (sort scope 1 greatestFirst child)).init = (.ok (), begun) ∧
          (∀ n, begun.answers n =
            (sorted.map (fun value => Except.ok (some value)) ++
              List.replicate n (Except.ok none)).take n) ∧
          sorted.Perm values := by
  intro scope values child
  have hgives : child.Gives (fun _ => True) (some values) (values.map .ok) :=
    scan_gives values values (Nat.le_refl _)
  have hkeys : PlainKeys scope 1 greatestFirst values := by
    intro value hvalue
    refine ⟨[value, .null], ?_, ?_⟩
    · simp only [values, List.mem_cons, List.not_mem_nil, or_false] at hvalue
      rcases hvalue with rfl | rfl | rfl | rfl | rfl <;> rfl
    · intro key hkey
      simp only [values, List.mem_cons, List.not_mem_nil, or_false] at hvalue hkey
      rcases hkey with rfl | rfl
      · rcases hvalue with rfl | rfl | rfl | rfl | rfl <;> constructor <;> intro x hx <;> cases hx
      · constructor <;> intro x hx <;> cases hx
  obtain ⟨begun, sorted, hbegun, hanswers, hperm, -⟩ :=
    @sort_orders_stably scope 1 greatestFirst _ child (fun _ => True)
      (some values) .empty values rfl
      hgives hkeys
  exact ⟨rfl, hgives, hkeys, begun, sorted, hbegun, hanswers, hperm⟩

end Cursor

end ObjectQuery
