import ObjectQuery.Proofs.Cursor.Work
import ObjectQuery.Query

/-!
What a cursor gives from a state on, as a list: values and errors in order, and the end behind them.
An error is not the end; the next reading goes on behind it.
-/

namespace ObjectQuery

/-- What one reading gives before the end. -/
abbrev Event := Except QueryError Value

namespace Event

/-- The values among events. -/
def values (events : List Event) : List Value := events.filterMap Except.toOption

@[simp] theorem values_nil : values [] = [] := rfl

@[simp] theorem values_ok (value : Value) (events : List Event) :
    values (.ok value :: events) = value :: values events := rfl

@[simp] theorem values_error (error : QueryError) (events : List Event) :
    values (.error error :: events) = values events := rfl

@[simp] theorem values_map_ok (given : List Value) : values (given.map .ok) = given := by
  induction given with
  | nil => rfl
  | cons value rest ih => simp [ih]

theorem map_ok_injective {given given' : List Value}
    (h : (given.map .ok : List Event) = given'.map .ok) : given = given' := by
  rw [← values_map_ok given, h, values_map_ok]

/-- The values before the first error, and that error. -/
def drained : List Event → List Value × Option QueryError
  | [] => ([], none)
  | .ok value :: rest => (value :: (drained rest).1, (drained rest).2)
  | .error error :: _ => ([], some error)

theorem drained_map_ok (given : List Value) : drained (given.map .ok) = (given, none) := by
  induction given with
  | nil => rfl
  | cons value rest ih => simp [drained, ih]

/-- The answer to a reading. -/
def answer : Event → Except QueryError (Option Value)
  | .ok value => .ok (some value)
  | .error error => .error error

/-- The answers to so many readings: the events, and the end behind them. -/
def answers (n : Nat) (events : List Event) : List (Except QueryError (Option Value)) :=
  (events.map answer ++ List.replicate n (Except.ok none)).take n

theorem answers_cons (n : Nat) (event : Event) (events : List Event) :
    answers (n + 1) (event :: events) = event.answer :: answers n events := by
  rw [answers, List.replicate_succ', ← List.append_assoc, List.map_cons, List.cons_append,
    List.cons_append, List.take_succ_cons, List.take_append_of_le_length (by simp)]
  rfl

/-- All errors among events come from evaluations. -/
def Evaluated (events : List Event) : Prop :=
  ∀ error, .error error ∈ events → ∃ e, error = .evaluation e

theorem evaluated_map_ok (given : List Value) : Evaluated (given.map .ok) := by simp [Evaluated]

@[simp] theorem evaluated_ok {value : Value} {events : List Event} :
    Evaluated (.ok value :: events) ↔ Evaluated events := by simp [Evaluated]

@[simp] theorem evaluated_error {error : QueryError} {events : List Event} :
    Evaluated (.error error :: events) ↔ (∃ e, error = .evaluation e) ∧ Evaluated events := by
  simp only [Evaluated, List.mem_cons, Except.error.injEq, forall_eq_or_imp]

end Event

namespace Cursor

/-- The state gives the events, in order, and from then on the end. Every state on the way is as
told, and no more values come than its cursor says. -/
inductive Gives (cursor : Cursor) (kept : cursor.State → Prop) :
    cursor.State → List Event → Prop where
  | ended {state last : cursor.State} (trace : Trace) (hkept : kept state) (hlast : kept last)
    (hnext : ∀ before, cursor.next ⟨state, before⟩ = .ok none ⟨last, before ++ trace⟩)
    (hstays : ∀ before, cursor.next ⟨last, before⟩ = .ok none ⟨last, before⟩) :
    Gives cursor kept state []
  | value {state after : cursor.State} {value : Value} {rest : List Event} (trace : Trace)
    (hkept : kept state)
    (hnext : ∀ before, cursor.next ⟨state, before⟩ = .ok (some value) ⟨after, before ++ trace⟩)
    (hleft : (Event.values rest).length + 1 ≤ cursor.remaining state)
    (hrest : Gives cursor kept after rest) : Gives cursor kept state (.ok value :: rest)
  | error {state after : cursor.State} {error : QueryError} {rest : List Event} (trace : Trace)
    (hkept : kept state)
    (hnext : ∀ before, cursor.next ⟨state, before⟩ = .error error ⟨after, before ++ trace⟩)
    (hleft : (Event.values rest).length ≤ cursor.remaining state)
    (hrest : Gives cursor kept after rest) : Gives cursor kept state (.error error :: rest)

/-- A cursor that has begun: beginning again changes nothing. -/
def Begun (cursor : Cursor) (state : cursor.State) : Prop :=
  ∀ before, cursor.init ⟨state, before⟩ = .ok () ⟨state, before⟩

namespace Gives

variable {cursor : Cursor} {kept : cursor.State → Prop} {state : cursor.State}
  {events : List Event}

theorem kept_state (h : cursor.Gives kept state events) : kept state := by
  cases h <;> assumption

theorem length_le (h : cursor.Gives kept state events) :
    (Event.values events).length ≤ cursor.remaining state := by
  cases h with
  | ended => simp
  | value _ _ _ hleft _ => simpa using hleft
  | error _ _ _ hleft _ => simpa using hleft

theorem imp {kept' : cursor.State → Prop} (himp : ∀ state, kept state → kept' state)
    (h : cursor.Gives kept state events) : cursor.Gives kept' state events := by
  induction h with
  | ended trace hkept hlast hnext hstays =>
    exact .ended trace (himp _ hkept) (himp _ hlast) hnext hstays
  | value trace hkept hnext hleft _ ih => exact .value trace (himp _ hkept) hnext hleft ih
  | error trace hkept hnext hleft _ ih => exact .error trace (himp _ hkept) hnext hleft ih

theorem of_next_eq {after : cursor.State} (h : cursor.Gives kept after events) (trace : Trace)
    (hkept : kept state)
    (hnext : ∀ before, cursor.next ⟨state, before⟩ = cursor.next ⟨after, before ++ trace⟩)
    (hleft : (Event.values events).length ≤ cursor.remaining state) :
    cursor.Gives kept state events := by
  cases h with
  | ended trace' _ hlast hafter hstays =>
    refine .ended (trace ++ trace') hkept hlast (fun before => ?_) hstays
    rw [hnext, hafter, Trace.append_assoc]
  | value trace' _ hafter _ hrest =>
    refine .value (trace ++ trace') hkept (fun before => ?_) (by simpa using hleft) hrest
    rw [hnext, hafter, Trace.append_assoc]
  | error trace' _ hafter _ hrest =>
    refine .error (trace ++ trace') hkept (fun before => ?_) (by simpa using hleft) hrest
    rw [hnext, hafter, Trace.append_assoc]

theorem ended_of_stays (hlast : kept state)
    (hstays : ∀ before, cursor.next ⟨state, before⟩ = .ok none ⟨state, before⟩) :
    cursor.Gives kept state [] := by
  refine .ended .empty hlast hlast (fun before => ?_) hstays
  rw [Trace.append_empty]
  exact hstays before

theorem next (h : cursor.Gives kept state events) (before : Trace) :
    ∃ after trace, (Running.next ⟨cursor, ⟨state, before⟩⟩).2 = ⟨cursor, ⟨after, trace⟩⟩ ∧
      cursor.Gives kept after events.tail := by
  cases h with
  | @ended _ last trace _ hlast hnext hstays =>
    exact ⟨last, before ++ trace, by simp only [Running.next, hnext], ended_of_stays hlast hstays⟩
  | @value _ after _ _ trace _ hnext _ hrest =>
    exact ⟨after, before ++ trace, by simp only [Running.next, hnext], hrest⟩
  | @error _ after _ _ trace _ hnext _ hrest =>
    exact ⟨after, before ++ trace, by simp only [Running.next, hnext], hrest⟩

theorem next_ne_notInitialised (h : cursor.Gives kept state events)
    (hevaluated : Event.Evaluated events) (before : Trace) :
    (Running.next ⟨cursor, ⟨state, before⟩⟩).1 ≠ .error .notInitialised := by
  cases h with
  | ended _ _ _ hnext _ => simp [Running.next, hnext]
  | value _ _ hnext _ _ => simp [Running.next, hnext]
  | error _ _ hnext _ _ =>
    obtain ⟨⟨e, rfl⟩, -⟩ := Event.evaluated_error.mp hevaluated
    simp [Running.next, hnext]

end Gives

namespace Running

/-- The answers to so many readings. -/
def answers : Nat → Running → List (Except QueryError (Option Value))
  | 0, _ => []
  | n + 1, running => running.next.1 :: answers n running.next.2

variable {cursor : Cursor} {kept : cursor.State → Prop} {state : cursor.State}
  {events : List Event}

theorem next_eq_ok {value : Option Value} {progress after : Progress cursor.State}
    (h : cursor.next progress = .ok value after) :
    next ⟨cursor, progress⟩ = (.ok value, ⟨cursor, after⟩) := by
  simp only [next, h]

theorem next_eq_error {error : QueryError} {progress after : Progress cursor.State}
    (h : cursor.next progress = .error error after) :
    next ⟨cursor, progress⟩ = (.error error, ⟨cursor, after⟩) := by
  simp only [next, h]

theorem init_eq_ok {progress after : Progress cursor.State}
    (h : cursor.init progress = .ok () after) :
    init ⟨cursor, progress⟩ = (.ok (), ⟨cursor, after⟩) := by
  simp only [init, h]

theorem init_eq_error {error : QueryError} {progress after : Progress cursor.State}
    (h : cursor.init progress = .error error after) :
    init ⟨cursor, progress⟩ = (.error error, ⟨cursor, after⟩) := by
  simp only [init, h]

theorem init_eq_of_fst {running : Running} {answer : Except QueryError Unit}
    (h : running.init.1 = answer) : running.init = (answer, running.init.2) := by
  rw [← h]

theorem answers_of_ended {last : cursor.State}
    (hstays : ∀ before, cursor.next ⟨last, before⟩ = .ok none ⟨last, before⟩) (n : Nat)
    (before : Trace) :
    answers n ⟨cursor, ⟨last, before⟩⟩ = List.replicate n (.ok none) := by
  induction n with
  | zero => rfl
  | succ n ih => rw [answers, next_eq_ok (hstays before), ih, List.replicate_succ]

theorem answers_of_gives (h : cursor.Gives kept state events) (n : Nat) (before : Trace) :
    answers n ⟨cursor, ⟨state, before⟩⟩ = Event.answers n events := by
  induction h generalizing n before with
  | ended _ _ _ hnext hstays =>
    cases n with
    | zero => rfl
    | succ n =>
      rw [answers, next_eq_ok (hnext before), answers_of_ended hstays]
      simp [Event.answers, List.replicate_succ]
  | value _ _ hnext _ _ ih =>
    cases n with
    | zero => rfl
    | succ n => rw [answers, next_eq_ok (hnext before), ih, Event.answers_cons]; rfl
  | error _ _ hnext _ _ ih =>
    cases n with
    | zero => rfl
    | succ n => rw [answers, next_eq_error (hnext before), ih, Event.answers_cons]; rfl

theorem drain_of_gives (h : cursor.Gives kept state events) {fuel : Nat}
    (hfuel : (Event.values events).length < fuel) (before : Trace) :
    ∃ running, drain fuel ⟨cursor, ⟨state, before⟩⟩ = (Event.drained events, running) ∧
      ((Event.drained events).2 = none → running.next = (.ok none, running)) := by
  induction h generalizing fuel before with
  | ended _ _ _ hnext hstays =>
    obtain ⟨fuel, rfl⟩ := Nat.exists_eq_add_of_lt hfuel
    rw [drain, next_eq_ok (hnext before)]
    exact ⟨_, rfl, fun _ => next_eq_ok (hstays _)⟩
  | @value _ after _ rest trace _ hnext _ _ ih =>
    obtain ⟨fuel, rfl⟩ := Nat.exists_eq_add_of_lt (Nat.zero_lt_of_lt hfuel)
    have hrest : (Event.values rest).length < 0 + fuel := by
      rw [Event.values_ok, List.length_cons] at hfuel
      omega
    obtain ⟨running, hdrain, hend⟩ := ih hrest (before ++ trace)
    refine ⟨running, ?_, hend⟩
    rw [drain, next_eq_ok (hnext before)]
    simp only [hdrain]
    rfl
  | error _ _ hnext _ _ _ =>
    obtain ⟨fuel, rfl⟩ := Nat.exists_eq_add_of_lt (Nat.zero_lt_of_lt hfuel)
    rw [drain, next_eq_error (hnext before)]
    exact ⟨_, rfl, by simp [Event.drained]⟩

theorem readAll_of_gives (h : cursor.Gives kept state events) (before : Trace) :
    ∃ running, readAll ⟨cursor, ⟨state, before⟩⟩ = (Event.drained events, running) ∧
      ((Event.drained events).2 = none → running.next = (.ok none, running)) :=
  drain_of_gives h (Nat.lt_succ_of_le h.length_le) before

end Running

/-! ### The scan -/

theorem scan_gives (candidates left : List Value) (hleft : left.length ≤ candidates.length) :
    (scan candidates).Gives (fun _ => True) (some left) (left.map .ok) := by
  induction left with
  | nil =>
    have hstays : ∀ before, (scan candidates).next ⟨some [], before⟩ =
        .ok none ⟨some [], before⟩ := fun _ => rfl
    refine .ended .empty trivial trivial (fun before => ?_) hstays
    rw [Trace.append_empty]
    exact hstays before
  | cons value rest ih =>
    have hnext : ∀ before, (scan candidates).next ⟨some (value :: rest), before⟩ =
        .ok (some value) ⟨some rest, before⟩ := fun _ => rfl
    refine .value .empty trivial (fun before => ?_) ?_ (ih ?_)
    · rw [Trace.append_empty]
      exact hnext before
    · simp [scan]
    · simp at hleft
      omega

end Cursor

end ObjectQuery
