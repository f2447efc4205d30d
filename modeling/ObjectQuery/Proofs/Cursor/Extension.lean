import ObjectQuery.Cursor.Stage
import ObjectQuery.Proofs.Cursor.Event

/-!
Cursors over longer lists. As long as a cursor over a list finds values, it does the same over any
list that begins with this one. Main statement: a range that was given all the values it asks for is
given the same over a longer list, and nothing else is read for it.
-/

namespace ObjectQuery

/-! ### Steps -/

namespace Work

variable {σ σ' τ α β : Type} {related : σ → σ' → Prop} {wanted : α → Prop}

/-- From related states the second step gives what the first one gives, if that is wanted, with the
same record. -/
def Repeats (related : σ → σ' → Prop) (wanted : α → Prop) (first : Work σ α) (second : Work σ' α) :
    Prop :=
  ∀ state state' before, related state state' → ∀ a after, wanted a →
    first ⟨state, before⟩ = .ok a after →
      ∃ last, second ⟨state', before⟩ = .ok a ⟨last, after.trace⟩ ∧ related after.state last

/-- Related states below, and the same state above them. -/
def Over (related : σ → σ' → Prop) (state : Layer σ τ) (state' : Layer σ' τ) : Prop :=
  related state.below state'.below ∧ state'.own = state.own

theorem bind_eq_ok {first : Work σ α} {next : α → Work σ β} {progress after : Progress σ} {b : β} :
    (first >>= next) progress = .ok b after ↔
      ∃ a middle, first progress = .ok a middle ∧ next a middle = .ok b after := by
  simp only [Bind.bind, EStateM.bind]
  cases first progress with
  | ok a middle =>
    constructor
    · exact fun h => ⟨a, middle, rfl, h⟩
    · rintro ⟨_, _, ⟨⟩, h⟩
      exact h
  | error error middle =>
    constructor
    · intro h
      cases h
    · rintro ⟨_, _, ⟨⟩, _⟩

namespace Repeats

variable {first : Work σ α} {second : Work σ' α} {wantedNext : β → Prop}

theorem pure (a : α) : Repeats related wanted (pure a) (pure a) := by
  rintro state state' before h a after - ⟨⟩
  exact ⟨state', rfl, h⟩

theorem throw (error : QueryError) :
    Repeats related wanted (throw error) (throw error) := by
  rintro state state' before h a after - ⟨⟩

theorem bind {next : α → Work σ β} {next' : α → Work σ' β}
    (h : Repeats related wanted first second)
    (hnext : ∀ a, wanted a → Repeats related wantedNext (next a) (next' a))
    (honly : ∀ a progress b after, next a progress = .ok b after → wantedNext b → wanted a) :
    Repeats related wantedNext (first >>= next) (second >>= next') := by
  intro state state' before hrelated b after hb hrun
  obtain ⟨a, middle, hfirst, hrest⟩ := bind_eq_ok.mp hrun
  have ha := honly a middle b after hrest hb
  obtain ⟨between, hsecond, hbetween⟩ := h state state' before hrelated a middle ha hfirst
  obtain ⟨last, hlast, hrelated⟩ := hnext a ha _ _ _ hbetween b after hb hrest
  exact ⟨last, bind_eq_ok.mpr ⟨a, _, hsecond, hlast⟩, hrelated⟩

theorem bindAll {next : α → Work σ β} {next' : α → Work σ' β}
    (h : Repeats related (fun _ => True) first second)
    (hnext : ∀ a, Repeats related wantedNext (next a) (next' a)) :
    Repeats related wantedNext (first >>= next) (second >>= next') :=
  h.bind (fun a _ => hnext a) fun _ _ _ _ _ _ => trivial

theorem bindSome {γ : Type} {found : Work σ (Option γ)} {found' : Work σ' (Option γ)}
    {next : Option γ → Work σ β} {next' : Option γ → Work σ' β}
    (h : Repeats related (fun value => value.isSome) found found')
    (hnext : ∀ value, Repeats related wantedNext (next (some value)) (next' (some value)))
    (hnone : ∀ progress b after, next none progress = .ok b after → ¬ wantedNext b) :
    Repeats related wantedNext (found >>= next) (found' >>= next') := by
  refine h.bind (fun value hvalue => ?_) fun value progress b after hrun hb => ?_
  · obtain ⟨value, rfl⟩ := Option.isSome_iff_exists.mp hvalue
    exact hnext value
  · cases value with
    | none => exact absurd hb (hnone progress b after hrun)
    | some value => rfl

theorem below (h : Repeats related wanted first second) :
    Repeats (Over related (τ := τ)) wanted (Work.below first) (Work.below second) := by
  intro state state' before hrelated a after ha hrun
  have hbelow : ∀ {ρ : Type} (step : Work ρ α) (state : Layer ρ τ),
      (Work.below step : Work (Layer ρ τ) α) ⟨state, before⟩ =
        match step ⟨state.below, before⟩ with
        | .ok a middle => .ok a ⟨⟨middle.state, state.own⟩, middle.trace⟩
        | .error error middle => .error error ⟨⟨middle.state, state.own⟩, middle.trace⟩ := by
    intro ρ step state
    rw [Work.below]
    cases step ⟨state.below, before⟩ <;> rfl
  rw [hbelow] at hrun ⊢
  cases hfirst : first ⟨state.below, before⟩ with
  | error error middle =>
    rw [hfirst] at hrun
    cases hrun
  | ok found middle =>
    rw [hfirst] at hrun
    cases hrun
    obtain ⟨last, hsecond, hlast⟩ := h _ _ before hrelated.1 a middle ha hfirst
    rw [hsecond]
    exact ⟨⟨last, state'.own⟩, rfl, hlast, hrelated.2⟩

theorem own : Repeats (Over related (τ := τ)) (fun _ => True) Work.own Work.own := by
  rintro state state' before h mine after - ⟨⟩
  exact ⟨state', by rw [own_apply, h.2], h⟩

theorem setOwn (mine : τ) :
    Repeats (Over related) (fun _ => True) (Work.setOwn mine) (Work.setOwn mine) := by
  rintro state state' before h _ after - ⟨⟩
  exact ⟨⟨state'.below, mine⟩, rfl, h.1, rfl⟩

theorem evaluating (context : Context) (supply : InstanceId) (run : EStateM EvalError Machine α) :
    Repeats related (fun _ => True) (Work.evaluating context supply run)
      (Work.evaluating context supply run) := by
  intro state state' before h found after _ hrun
  simp only [Work.evaluating] at hrun ⊢
  cases hmachine : run (Machine.start context before supply) with
  | ok a machine =>
    rw [hmachine] at hrun
    cases hrun
    exact ⟨state', rfl, h⟩
  | error error machine =>
    rw [hmachine] at hrun
    cases hrun
    exact ⟨state', rfl, h⟩

theorem ofExcept (result : Except EvalError α) :
    Repeats related (fun _ => True) (Work.ofExcept result) (Work.ofExcept result) := by
  cases result with
  | ok a => exact pure a
  | error error => exact throw _

theorem begin {step : Work (Layer σ (Option τ)) Unit} {step' : Work (Layer σ' (Option τ)) Unit}
    (h : Repeats (Over related) (fun _ => True) step step') :
    Repeats (Over related) (fun _ => True) (do if (← Work.own).isNone then step)
      (do if (← Work.own).isNone then step') := by
  refine own.bindAll fun mine => ?_
  split
  · exact h
  · exact pure ()

end Repeats

end Work

namespace Cursor

open Work

variable {first second : Cursor}

/-- How the second cursor goes on like the first one, as long as that one finds values. -/
structure Extension (first second : Cursor) where
  related : first.State → second.State → Prop
  start : related first.start second.start
  init : Repeats related (fun _ => True) first.init second.init
  next : Repeats related (fun value => value.isSome) first.next second.next
  remaining : ∀ state state', related state state' →
    first.remaining state ≤ second.remaining state'

namespace Extension

variable {scope : Scope} {stage : Nat}

def scan (values more : List Value) :
    Extension (Cursor.scan values) (Cursor.scan (values ++ more)) where
  related left left' := left' = left.map (· ++ more)
  start := rfl
  init := by
    rintro left _ before rfl _ after - ⟨⟩
    exact ⟨some (values ++ more), rfl, rfl⟩
  next := by
    rintro left _ before rfl found after hfound hrun
    match left with
    | none => cases hrun
    | some [] =>
      cases hrun
      cases hfound
    | some (value :: rest) =>
      cases hrun
      exact ⟨some (rest ++ more), rfl, rfl⟩
  remaining := by
    rintro left _ rfl
    cases left <;> simp [Cursor.scan]

theorem nextSatisfying_repeats (extension : Extension first second) (condition : Expr)
    {fuel fuel' : Nat} (hfuel : fuel ≤ fuel') (context : Context) :
    Repeats (Over extension.related) (fun value => value.isSome)
      (nextSatisfying scope stage condition first fuel context)
      (nextSatisfying scope stage condition second fuel' context) := by
  induction fuel generalizing fuel' context with
  | zero =>
    rintro state state' before h found after hfound ⟨⟩
    cases hfound
  | succ fuel ih =>
    obtain ⟨fuel', rfl⟩ := Nat.exists_eq_add_one_of_ne_zero (Nat.ne_zero_of_lt hfuel)
    refine extension.next.below.bindSome (fun candidate => ?_) ?_
    · refine (Repeats.evaluating _ _ _).bindAll fun ⟨kept, last⟩ => ?_
      refine (Repeats.setOwn _).bindAll fun _ => (Repeats.ofExcept kept).bindAll fun kept => ?_
      cases kept with
      | true => exact .pure _
      | false => exact ih (Nat.le_of_succ_le_succ hfuel) _
    · rintro progress found after ⟨⟩ ⟨⟩

def filter (extension : Extension first second) (scope : Scope) (stage : Nat) (condition : Expr) :
    Extension (Cursor.filter scope stage condition first)
      (Cursor.filter scope stage condition second) where
  related := Over extension.related
  start := ⟨extension.start, rfl⟩
  init := .begin (extension.init.below.bindAll fun _ => .setOwn _)
  next := by
    refine Repeats.own.bindAll fun mine => ?_
    cases mine with
    | none => exact .throw _
    | some context =>
      intro state state' before h
      have hleft := extension.remaining _ _ h.1
      exact nextSatisfying_repeats extension condition (Nat.succ_le_succ hleft) context state state'
        before h
  remaining state state' h := extension.remaining _ _ h.1

def project (extension : Extension first second) (scope : Scope) (stage : Nat)
    (results : List Expr) :
    Extension (Cursor.project scope stage results first)
      (Cursor.project scope stage results second) where
  related := Over extension.related
  start := ⟨extension.start, rfl⟩
  init := by
    refine .begin ?_
    split
    · exact .bindAll (.throw _) fun _ => extension.init.below.bindAll fun _ => .setOwn _
    · exact extension.init.below.bindAll fun _ => .setOwn _
  next := by
    refine Repeats.own.bindAll fun mine => ?_
    cases mine with
    | none => exact .throw _
    | some standing =>
      refine extension.next.below.bindSome (fun candidate => ?_) ?_
      · refine (Repeats.evaluating _ _ _).bindAll fun ⟨values, last⟩ => ?_
        exact (Repeats.setOwn _).bindAll fun _ => (Repeats.ofExcept values).bindAll fun _ => .pure _
      · rintro progress row after ⟨⟩ ⟨⟩
  remaining state state' h := extension.remaining _ _ h.1

theorem dropValues_repeats (extension : Extension first second) (take : Option Nat) (skip : Nat) :
    Repeats (Over extension.related) (fun reached => reached = true) (dropValues first take skip)
      (dropValues second take skip) := by
  induction skip with
  | zero => exact .pure true
  | succ skip ih =>
    refine extension.next.below.bindSome (fun _ => (Repeats.setOwn _).bindAll fun _ => ih) ?_
    rintro progress reached after ⟨⟩ ⟨⟩

def range (extension : Extension first second) (extent : Range) :
    Extension (Cursor.range extent first) (Cursor.range extent second) where
  related := Over extension.related
  start := ⟨extension.start, rfl⟩
  init := .begin (extension.init.below.bindAll fun _ => .setOwn _)
  next := by
    refine Repeats.own.bindAll fun mine => ?_
    cases mine with
    | none => exact .throw _
    | some left =>
      simp only
      split
      · exact .pure none
      refine (extension.dropValues_repeats left.take left.skip).bind (fun reached hreached => ?_)
        fun reached progress value after hrun hvalue => ?_
      · subst hreached
        refine extension.next.below.bindSome
          (fun _ => (Repeats.setOwn _).bindAll fun _ => .pure _) ?_
        rintro progress value after ⟨⟩ ⟨⟩
      · cases reached with
        | false =>
          cases hrun
          cases hvalue
        | true => rfl
  remaining state state' h := extension.remaining _ _ h.1

/-! ### Stacks -/

/-- The stage reads its candidates one at a time, as its own values are asked for. -/
def Reads : Stage → Prop
  | .filter _ | .range _ | .project _ => True
  | .sort _ | .aggregate _ => False

def ofStage (extension : Extension first second) (scope : Scope) (number : Nat) :
    (stage : Stage) → Reads stage →
      Extension (stage.cursor scope number first) (stage.cursor scope number second)
  | .filter condition, _ => extension.filter scope number condition
  | .range extent, _ => extension.range extent
  | .project results, _ => extension.project scope number results

def ofNumbered (scope : Scope) {first second : Cursor} (extension : Extension first second) :
    (stages : List (Stage × Nat)) → (∀ stage ∈ stages, Reads stage.1) →
      Extension (stages.foldl (fun child (stage, number) => stage.cursor scope number child) first)
        (stages.foldl (fun child (stage, number) => stage.cursor scope number child) second)
  | [], _ => extension
  | (lowest, number) :: rest, h =>
    ofNumbered scope (extension.ofStage scope number lowest (h _ List.mem_cons_self)) rest
      fun stage hstage => h stage (List.mem_cons_of_mem _ hstage)

def ofStages (scope : Scope) (values more : List Value) (stages : List Stage)
    (h : ∀ stage ∈ stages, Reads stage) :
    Extension (Cursor.ofStages scope values stages)
    (Cursor.ofStages scope (values ++ more) stages) :=
  (scan values more).ofNumbered scope (stages.zipIdx 1)
    fun stage hstage => h stage.1 (List.fst_mem_of_mem_zipIdx hstage)

end Extension

/-! ### Ranges that are filled -/

theorem Running.drain_eq_cons {cursor : Cursor} {fuel : Nat} {progress : Progress cursor.State}
    {row : Value} {rest : List Value} {last : Running} :
    drain (fuel + 1) ⟨cursor, progress⟩ = ((row :: rest, none), last) ↔
      ∃ after, cursor.next progress = .ok (some row) after ∧
        drain fuel ⟨cursor, after⟩ = ((rest, none), last) := by
  rw [drain]
  cases hstep : cursor.next progress with
  | error error after => simp [next_eq_error hstep]
  | ok found after =>
    rw [next_eq_ok hstep]
    cases found with
    | none => simp
    | some value =>
      cases hdrain : drain fuel ⟨cursor, after⟩ with
      | mk read running => simp [hdrain, Prod.ext_iff, and_assoc]

section Filled

variable {total left : Range} {child : Cursor} {below : child.State} {before : Trace}

theorem range_init_of_notBegun (total : Range) (child : Cursor) (below : child.State)
    (before : Trace) :
    (range total child).init ⟨⟨below, none⟩, before⟩ =
      match child.init ⟨below, before⟩ with
      | .ok _ after => .ok () ⟨⟨after.state, some total⟩, after.trace⟩
      | .error error after => .error error ⟨⟨after.state, none⟩, after.trace⟩ := by
  refine (Work.notBegun rfl).trans ((Work.below_setOwn _).trans ?_)
  cases child.init ⟨below, before⟩ <;> rfl

theorem own_of_range_next {value : Value} {after : Progress (Layer child.State (Option Range))}
    (h : (range total child).next ⟨⟨below, some left⟩, before⟩ = .ok (some value) after) :
    after.state.own = some ⟨0, left.take.map (· - 1)⟩ := by
  obtain ⟨_, _, ⟨⟩, h⟩ := bind_eq_ok.mp h
  simp only at h
  split at h
  · cases h
  obtain ⟨reached, _, -, h⟩ := bind_eq_ok.mp h
  cases reached with
  | false => cases h
  | true =>
    obtain ⟨found, _, -, h⟩ := bind_eq_ok.mp h
    cases found with
    | none => cases h
    | some value =>
      cases h
      rfl

theorem drain_spent (fuel skip : Nat) :
    Running.drain fuel ⟨range total child, ⟨⟨below, some ⟨skip, some 0⟩⟩, before⟩⟩ =
      (([], none), ⟨range total child, ⟨⟨below, some ⟨skip, some 0⟩⟩, before⟩⟩) := by
  have hnext : (range total child).next ⟨⟨below, some ⟨skip, some 0⟩⟩, before⟩ =
      .ok none ⟨⟨below, some ⟨skip, some 0⟩⟩, before⟩ := rfl
  cases fuel with
  | zero => rfl
  | succ fuel => rw [Running.drain, Running.next_eq_ok hnext]

end Filled

/-- A range that is filled is filled with the same values over the second cursor. When no row is
left to come the range is spent, so that neither cursor is read where they may differ. -/
theorem Extension.drain_filled (extension : Extension first second) {total : Range}
    {rows : List Value} {fuel fuel' : Nat} (hfuel : fuel ≤ fuel') {below : first.State}
    {below' : second.State} (h : extension.related below below') {skip : Nat} {before : Trace}
    {last : Running}
    (hdrain : Running.drain fuel
      ⟨Cursor.range total first, ⟨⟨below, some ⟨skip, some rows.length⟩⟩, before⟩⟩ =
        ((rows, none), last)) :
    ∃ last', Running.drain fuel'
      ⟨Cursor.range total second, ⟨⟨below', some ⟨skip, some rows.length⟩⟩, before⟩⟩ =
        ((rows, none), last') ∧ last'.progress.trace = last.progress.trace := by
  induction rows generalizing fuel fuel' below below' skip before with
  | nil =>
    rw [List.length_nil, drain_spent] at hdrain
    cases hdrain
    exact ⟨_, drain_spent fuel' skip, rfl⟩
  | cons row rest ih =>
    cases fuel with
    | zero => cases hdrain
    | succ fuel =>
      obtain ⟨fuel', rfl⟩ := Nat.exists_eq_add_one_of_ne_zero (Nat.ne_zero_of_lt hfuel)
      obtain ⟨⟨⟨middle, own⟩, trace⟩, hstep, hrest⟩ := Running.drain_eq_cons.mp hdrain
      obtain rfl : own = some ⟨0, some rest.length⟩ := own_of_range_next hstep
      obtain ⟨⟨middle', own'⟩, hstep', hrelated, hsame⟩ :=
        (extension.range total).next ⟨below, _⟩ ⟨below', _⟩ before ⟨h, rfl⟩ _ _ rfl hstep
      obtain rfl : own' = _ := hsame
      obtain ⟨last', hrest', htrace⟩ := ih (Nat.le_of_succ_le_succ hfuel) hrelated hrest
      exact ⟨last', Running.drain_eq_cons.mpr ⟨_, hstep', hrest'⟩, htrace⟩

end Cursor

end ObjectQuery
