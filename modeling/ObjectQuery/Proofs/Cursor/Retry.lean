import ObjectQuery.Proofs.Cursor.Opening

/-!
Calls on a stack of stages that could not begin. A call of `init` that succeeds at last does not
give what the stages make of the candidates, but what they make of the leftovers of the calls that
failed.
-/

namespace ObjectQuery.Cursor

variable {scope : Scope} {candidates : List Value} {stages : Numbered} {stall : Stall}
  {first later : Running}

/-- One running comes from another by calls, whatever they answer, and so many of them were readings
of a stack that has begun. -/
inductive Running.Called (first : Running) : Nat → Running → Prop where
  | refl : Called first 0 first
  | init {read : Nat} {later : Running} (h : Called first read later) :
    Called first read later.init.2
  | refused {read : Nat} {later : Running} (h : Called first read later)
    (hnext : later.next.1 = .error .notInitialised) : Called first read later.next.2
  | reading {read : Nat} {later : Running} (h : Called first read later)
    (hnext : later.next.1 ≠ .error .notInitialised) : Called first (read + 1) later.next.2

/-- The stages that wait begin over the leftovers, at once or after more failures, and come to the
given events. -/
inductive Recovers (scope : Scope) : Stall → List Event → Prop where
  | begins {stall : Stall} {given : List Event}
    (h : beginAll scope stall.left stall.waiting = .ok given) : Recovers scope stall given
  | fails {stall next : Stall} {given : List Event}
    (h : beginAll scope stall.left stall.waiting = .error next)
    (hnext : Recovers scope next given) : Recovers scope stall given

theorem Recovers.unique {given given' : List Event} (h : Recovers scope stall given)
    (h' : Recovers scope stall given') : given = given' := by
  induction h with
  | begins hgiven =>
    cases h' with
    | begins hgiven' => exact Except.ok.inj (hgiven.symm.trans hgiven')
    | fails herror => simp [hgiven] at herror
  | fails herror _ ih =>
    cases h' with
    | begins hgiven => simp [herror] at hgiven
    | fails herror' hnext' =>
      obtain rfl := Except.error.inj (herror.symm.trans herror')
      exact ih hnext'

/-! ### Stacks that begin over leftovers -/

/-- Where calls lead after a stall: the stack waits in a stall from which it comes to nothing else,
or it has begun and so much of what it gives has been read. -/
inductive Resumed (scope : Scope) (candidates : List Value) (stall : Stall) :
    Nat → Running → Prop where
  | waiting {cursor : Cursor} {state : cursor.State} (now : Stall) (trace : Trace)
    (h : Waits scope candidates cursor state (some now.left) now.waiting)
    (hwaiting : now.waiting ≠ []) (hfault : faultOf? now.waiting = none)
    (hleft : Event.Evaluated now.left)
    (hback : ∀ given, Recovers scope now given → Recovers scope stall given) :
    Resumed scope candidates stall 0 ⟨cursor, ⟨state, trace⟩⟩
  | begun {cursor : Cursor} {state : cursor.State} {given : List Event} (read : Nat) (trace : Trace)
    (hrecovers : Recovers scope stall given) (hgiven : Event.Evaluated given)
    (h : cursor.Gives (Begun cursor) state (given.drop read)) :
    Resumed scope candidates stall read ⟨cursor, ⟨state, trace⟩⟩

theorem Waits.init_of_left [scope.environment.registry.EvaluatesArguments] {cursor : Cursor}
    {state : cursor.State} {now : Stall}
    (h : Waits scope candidates cursor state (some now.left) now.waiting)
    (hfault : faultOf? now.waiting = none) (trace : Trace) :
    match beginAll scope now.left now.waiting with
    | .ok given => ∃ last trace', cursor.Gives (Begun cursor) last given ∧
      Running.init ⟨cursor, ⟨state, trace⟩⟩ = (.ok (), ⟨cursor, ⟨last, trace'⟩⟩)
    | .error next => ∃ last trace',
      Waits scope candidates cursor last (some next.left) next.waiting ∧
      Running.init ⟨cursor, ⟨state, trace⟩⟩ = (.error next.error, ⟨cursor, ⟨last, trace'⟩⟩) := by
  have hbegin := h.init_of_faultless hfault
  simp only [available, Option.getD_some, reduceCtorEq, false_and, if_false, ne_eq,
    not_false_eq_true, true_or, forall_const] at hbegin
  cases hresult : beginAll scope now.left now.waiting with
  | ok given =>
    rw [hresult] at hbegin
    obtain ⟨last, trace', hgives, hinit⟩ := hbegin
    exact ⟨last, _, hgives, Running.init_eq_ok (hinit trace)⟩
  | error next =>
    rw [hresult] at hbegin
    obtain ⟨last, trace', hwaits, hinit⟩ := hbegin
    exact ⟨last, _, hwaits, Running.init_eq_error (hinit trace)⟩

namespace Resumed

variable {read : Nat}

theorem init [scope.environment.registry.EvaluatesArguments]
    (h : Resumed scope candidates stall read later) :
    Resumed scope candidates stall read later.init.2 := by
  cases h with
  | @waiting cursor state now trace h hwaiting hfault hleft hback =>
    have hinit := h.init_of_left hfault trace
    have hevaluated := beginAll_evaluated scope now.waiting hleft
    cases hresult : beginAll scope now.left now.waiting with
    | ok given =>
      rw [hresult] at hinit hevaluated
      obtain ⟨last, trace', hgives, hinit⟩ := hinit
      rw [hinit]
      exact .begun 0 trace' (hback _ (.begins hresult)) hevaluated hgives
    | error next =>
      rw [hresult] at hinit hevaluated
      obtain ⟨last, trace', hwaits, hinit⟩ := hinit
      obtain ⟨hsuffix, hne⟩ := beginAll_waiting hresult
      rw [hinit]
      exact .waiting next trace' hwaits hne (faultOf?_suffix hsuffix hfault) hevaluated.2
        fun given hgiven => hback given (.fails hresult hgiven)
  | @begun cursor state given _ trace hrecovers hgiven h =>
    rw [Running.init_eq_ok (h.kept_state trace)]
    exact .begun read trace hrecovers hgiven h

theorem refused (h : Resumed scope candidates stall read later)
    (hnext : later.next.1 = .error .notInitialised) :
    Resumed scope candidates stall read later.next.2 := by
  cases h with
  | waiting now trace h hwaiting hfault hleft hback =>
    rw [Running.next_eq_error (h.next_of_waiting hwaiting trace)]
    exact .waiting now trace h hwaiting hfault hleft hback
  | @begun cursor state given _ trace hrecovers hgiven h =>
    exact absurd hnext (h.next_ne_notInitialised
      (fun error herror => hgiven error (List.mem_of_mem_drop herror)) trace)

theorem reading (h : Resumed scope candidates stall read later)
    (hnext : later.next.1 ≠ .error .notInitialised) :
    Resumed scope candidates stall (read + 1) later.next.2 := by
  cases h with
  | waiting now trace h hwaiting hfault hleft hback =>
    exact absurd
      (congrArg Prod.fst (Running.next_eq_error (h.next_of_waiting hwaiting trace))) hnext
  | @begun cursor state given _ trace hrecovers hgiven h =>
    obtain ⟨after, trace', hafter, hrest⟩ := h.next trace
    rw [hafter]
    rw [List.tail_drop] at hrest
    exact .begun (read + 1) trace' hrecovers hgiven hrest

theorem of_called [scope.environment.registry.EvaluatesArguments]
    (hfirst : Resumed scope candidates stall 0 first) (h : first.Called read later) :
    Resumed scope candidates stall read later := by
  induction h with
  | refl => exact hfirst
  | init _ ih => exact ih.init
  | refused _ hnext ih => exact ih.refused hnext
  | reading _ hnext ih => exact ih.reading hnext

theorem answers_of_init [scope.environment.registry.EvaluatesArguments]
    (h : Resumed scope candidates stall read later) (hinit : later.init.1 = .ok ()) :
    ∃ given, Recovers scope stall given ∧
      ∀ n, later.init.2.answers n = Event.answers n (given.drop read) := by
  cases h with
  | @waiting cursor state now trace h hwaiting hfault hleft hback =>
    have hbegin := h.init_of_left hfault trace
    cases hresult : beginAll scope now.left now.waiting with
    | error next =>
      rw [hresult] at hbegin
      obtain ⟨last, trace', -, hfails⟩ := hbegin
      rw [hfails] at hinit
      cases hinit
    | ok given =>
      rw [hresult] at hbegin
      obtain ⟨last, trace', hgives, hbegin⟩ := hbegin
      refine ⟨given, hback given (.begins hresult), fun n => ?_⟩
      rw [hbegin]
      exact Running.answers_of_gives hgives n trace'
  | @begun cursor state given _ trace hrecovers hgiven h =>
    refine ⟨given, hrecovers, fun n => ?_⟩
    rw [Running.init_eq_ok (h.kept_state trace)]
    exact Running.answers_of_gives h n trace

end Resumed

theorem Waits.recovers [scope.environment.registry.EvaluatesArguments] {cursor : Cursor}
    {state : cursor.State} {given : List Event} (hrecovers : Recovers scope stall given)
    (h : Waits scope candidates cursor state (some stall.left) stall.waiting)
    (hfault : faultOf? stall.waiting = none) (trace : Trace)
    (hcalled : first.Called 0 ⟨cursor, ⟨state, trace⟩⟩) :
    ∃ later, first.Called 0 later ∧ later.init.1 = .ok () := by
  induction hrecovers generalizing state trace with
  | begins hgiven =>
    have hbegin := h.init_of_left hfault trace
    rw [hgiven] at hbegin
    obtain ⟨last, trace', -, hinit⟩ := hbegin
    exact ⟨_, hcalled, congrArg Prod.fst hinit⟩
  | fails herror _ ih =>
    have hbegin := h.init_of_left hfault trace
    rw [herror] at hbegin
    obtain ⟨last, trace', hwaits, hinit⟩ := hbegin
    have hcalled' := hcalled.init
    rw [hinit] at hcalled'
    exact ih hwaits (faultOf?_suffix (beginAll_waiting herror).1 hfault) trace' hcalled'

/-! ### Stacks that never begin -/

/-- Nothing has begun but the scan, and the stages cannot begin over the candidates. -/
inductive Blocked (scope : Scope) (candidates : List Value) : Running → Prop where
  | fault {cursor : Cursor} {state : cursor.State} {stages : Numbered} {error : QueryError}
    (trace : Trace) (h : Waits scope candidates cursor state none stages)
    (hfault : faultOf? stages = some error) : Blocked scope candidates ⟨cursor, ⟨state, trace⟩⟩
  | lowest {cursor : Cursor} {state : cursor.State} {stages : Numbered} {stall : Stall}
    (trace : Trace) (h : Waits scope candidates cursor state none stages)
    (hfault : faultOf? stages = none)
    (hstall : beginAll scope (candidates.map .ok) stages = .error stall)
    (hlowest : stall.waiting.length = stages.length) :
    Blocked scope candidates ⟨cursor, ⟨state, trace⟩⟩

namespace Blocked

theorem init [scope.environment.registry.EvaluatesArguments] (h : Blocked scope candidates later) :
    later.init.1 ≠ .ok () ∧ Blocked scope candidates later.init.2 := by
  cases h with
  | fault trace h hfault =>
    rw [Running.init_eq_error (h.init_of_fault hfault trace)]
    exact ⟨by simp, .fault trace h hfault⟩
  | @lowest cursor state stages stall trace h hfault hstall hlowest =>
    have hbegin := h.init_of_faultless hfault
    rw [available, Option.getD_none, hstall] at hbegin
    simp only [hlowest, and_self, if_true] at hbegin
    obtain ⟨last, trace', hwaits, hinit⟩ := hbegin
    obtain ⟨hsuffix, -⟩ := beginAll_waiting hstall
    obtain rfl := hsuffix.eq_of_length hlowest
    rw [Running.init_eq_error (hinit trace)]
    exact ⟨by simp, .lowest _ hwaits hfault hstall hlowest⟩

theorem next (h : Blocked scope candidates later) : Blocked scope candidates later.next.2 := by
  cases h with
  | @fault cursor state stages error trace h hfault =>
    have hne : stages ≠ [] := by
      rintro rfl
      cases hfault
    rw [Running.next_eq_error (h.next_of_waiting hne trace)]
    exact .fault trace h hfault
  | @lowest cursor state stages stall trace h hfault hstall hlowest =>
    have hne : stages ≠ [] := by
      rintro rfl
      cases hstall
    rw [Running.next_eq_error (h.next_of_waiting hne trace)]
    exact .lowest trace h hfault hstall hlowest

theorem of_called [scope.environment.registry.EvaluatesArguments] {read : Nat}
    (hfirst : Blocked scope candidates first) (h : first.Called read later) :
    Blocked scope candidates later := by
  induction h with
  | refl => exact hfirst
  | init _ ih => exact ih.init.2
  | refused _ _ ih => exact ih.next
  | reading _ _ ih => exact ih.next

end Blocked

/-! ### Retrying -/

/-- What a stack can give that has failed to begin once: no stage is without expressions, another
stage has begun below the one that failed, and those that have not come to these events over what is
left. -/
def Leftover (scope : Scope) (candidates : List Value) (stages : List Stage)
    (given : List Event) : Prop :=
  faultOf? (stages.zipIdx 1) = none ∧
    ∃ stall, beginAll scope (candidates.map .ok) (stages.zipIdx 1) = .error stall ∧
      stall.waiting.length ≠ stages.length ∧ Recovers scope stall given

theorem resumed_or_blocked [scope.environment.registry.EvaluatesArguments] {stages : List Stage}
    {error : QueryError} {failed : Running}
    (hfirst : (Running.start (ofStages scope candidates stages)).init = (.error error, failed)) :
    (∃ stall, faultOf? (stages.zipIdx 1) = none ∧
      beginAll scope (candidates.map .ok) (stages.zipIdx 1) = .error stall ∧
      stall.waiting.length ≠ stages.length ∧ Resumed scope candidates stall 0 failed ∧
      ∀ given, Recovers scope stall given →
        ∃ later, failed.Called 0 later ∧ later.init.1 = .ok ()) ∨
    Blocked scope candidates failed ∧ ∀ given, ¬Leftover scope candidates stages given := by
  have hstart := waits_start scope candidates (stages.zipIdx 1)
  rw [← ofStages_eq_stack] at hstart
  cases hfault : faultOf? (stages.zipIdx 1) with
  | some own =>
    refine .inr ⟨?_, fun given hgiven => ?_⟩
    · rw [Running.start, Running.init_eq_error (hstart.init_of_fault hfault .empty)] at hfirst
      obtain ⟨-, rfl⟩ := Prod.mk.inj hfirst
      exact .fault _ hstart hfault
    · rw [Leftover, hfault] at hgiven
      cases hgiven.1
  | none =>
    have hbegin := hstart.init_of_faultless hfault
    rw [available, Option.getD_none] at hbegin
    cases hresult : beginAll scope (candidates.map .ok) (stages.zipIdx 1) with
    | ok given =>
      rw [hresult] at hbegin
      obtain ⟨last, trace, -, hinit⟩ := hbegin
      rw [Running.start, Running.init_eq_ok (hinit .empty)] at hfirst
      cases hfirst
    | error stall =>
      rw [hresult] at hbegin
      obtain ⟨last, trace, hwaits, hinit⟩ := hbegin
      obtain ⟨hsuffix, hne⟩ := beginAll_waiting hresult
      rw [Running.start, Running.init_eq_error (hinit .empty)] at hfirst
      obtain ⟨-, rfl⟩ := Prod.mk.inj hfirst
      rw [List.length_zipIdx] at hwaits
      -- If the lowest stage failed, the candidates are scanned again, up to the same failure.
      by_cases hlowest : stall.waiting.length = stages.length
      · refine .inr ⟨?_, fun given hgiven => ?_⟩
        · rw [if_pos ⟨rfl, hlowest⟩, hsuffix.eq_of_length (by simpa using hlowest)] at hwaits
          exact .lowest _ hwaits hfault hresult (by simpa using hlowest)
        · obtain ⟨-, stall', hstall', hbelow, -⟩ := hgiven
          obtain rfl := Except.error.inj (hresult.symm.trans hstall')
          exact hbelow hlowest
      · rw [if_neg fun h => hlowest h.2] at hwaits
        have hupper := faultOf?_suffix hsuffix hfault
        have hevaluated := beginAll_evaluated scope (stages.zipIdx 1)
          (Event.evaluated_map_ok candidates)
        rw [hresult] at hevaluated
        exact .inl ⟨stall, rfl, rfl, hlowest,
          .waiting stall _ hwaits hne hupper hevaluated.2 fun _ => id,
          fun given hgiven => hwaits.recovers hgiven hupper _ .refl⟩

theorem Leftover.unique {stages : List Stage} {given given' : List Event}
    (h : Leftover scope candidates stages given) (h' : Leftover scope candidates stages given') :
    given = given' := by
  obtain ⟨-, stall, hstall, -, hgiven⟩ := h
  obtain ⟨-, stall', hstall', -, hgiven'⟩ := h'
  obtain rfl := Except.error.inj (hstall.symm.trans hstall')
  exact hgiven.unique hgiven'

theorem Leftover.init_fails [scope.environment.registry.EvaluatesArguments] {stages : List Stage}
    {given : List Event} (h : Leftover scope candidates stages given) :
    ∃ error failed, (Running.start (ofStages scope candidates stages)).init =
      (.error error, failed) := by
  obtain ⟨hfault, stall, hstall, -, -⟩ := h
  have hstart := waits_start scope candidates (stages.zipIdx 1)
  rw [← ofStages_eq_stack] at hstart
  have hbegin := hstart.init_of_faultless hfault
  rw [available, Option.getD_none, hstall] at hbegin
  obtain ⟨last, trace, -, hinit⟩ := hbegin
  exact ⟨stall.error, _, Running.init_eq_error (hinit .empty)⟩

/-- Whatever succeeds after a failure is answered as on a stack that has not failed. -/
def RetriesAsFresh (cursor : Cursor) : Prop :=
  ∀ error failed, (Running.start cursor).init = (.error error, failed) →
    ∀ read later, failed.Called read later → later.init.1 = .ok () →
      ∃ fresh, (Running.start cursor).init = (.ok (), fresh) ∧
        ∀ n, later.init.2.answers n = (fresh.answers (read + n)).drop read

/-- The candidates whose negations are negative, counted. -/
def positiveCount : List Stage :=
  [.filter (.binary .lt (.unary .neg (.path none ["this"])) (.literal (.int 0))),
    .aggregate [.callFunction "count" [.path none ["this"]]]]

/-- The count fails on a value that cannot be negated, and then leaves out what came before it. -/
theorem retried_count_leaves_out :
    ¬RetriesAsFresh
      (ofStages (membershipScope []) [.int 1, .boolean true, .int 2] positiveCount) := by
  intro h
  have hfirst : (Running.start (ofStages (membershipScope []) [.int 1, .boolean true, .int 2]
      positiveCount)).init.1 = .error (.evaluation (.nonNumericNegation "Boolean")) := by
    decide +kernel
  have hsecond : (Running.start (ofStages (membershipScope []) [.int 1, .boolean true, .int 2]
      positiveCount)).init.2.init.1 = .ok () := by decide +kernel
  obtain ⟨fresh, hfresh, -⟩ := h _ _ (Running.init_eq_of_fst hfirst) 0 _ .refl hsecond
  rw [hfresh] at hfirst
  cases hfirst

/-- Retrying gives what a stack gives that has not failed only where it never succeeds: if and only
if there are no leftovers which the stages begin over. Where it succeeds, it gives what the stages
make of such leftovers, behind what has been read of it. -/
theorem retriesAsFresh_iff (scope : Scope) [scope.environment.registry.EvaluatesArguments]
    (candidates : List Value) (stages : List Stage) :
    (RetriesAsFresh (ofStages scope candidates stages) ↔
      ∀ given, ¬Leftover scope candidates stages given) ∧
    ∀ error failed,
      (Running.start (ofStages scope candidates stages)).init = (.error error, failed) →
      ∀ read later, failed.Called read later → later.init.1 = .ok () →
        ∃ given, Leftover scope candidates stages given ∧
          ∀ n, later.init.2.answers n = Event.answers n (given.drop read) := by
  have hleftover : ∀ error failed,
      (Running.start (ofStages scope candidates stages)).init = (.error error, failed) →
      ∀ read later, failed.Called read later → later.init.1 = .ok () →
        ∃ given, Leftover scope candidates stages given ∧
          ∀ n, later.init.2.answers n = Event.answers n (given.drop read) := by
    intro error failed hfirst read later hcalled hinit
    rcases resumed_or_blocked hfirst with ⟨stall, hfault, hstall, hbelow, hresumed, -⟩ |
      ⟨hblocked, -⟩
    · obtain ⟨given, hgiven, hanswers⟩ := (hresumed.of_called hcalled).answers_of_init hinit
      exact ⟨given, ⟨hfault, stall, hstall, hbelow, hgiven⟩, hanswers⟩
    · exact absurd hinit (hblocked.of_called hcalled).init.1
  refine ⟨⟨fun hfresh given hgiven => ?_, fun hnone => ?_⟩, hleftover⟩
  -- Leftovers let a later call succeed, where a stack that has not failed would fail.
  · obtain ⟨error, failed, hfirst⟩ := hgiven.init_fails
    rcases resumed_or_blocked hfirst with ⟨stall, -, hstall, -, -, hrecovers⟩ | ⟨-, hnone⟩
    · obtain ⟨-, stall', hstall', -, hgiven⟩ := hgiven
      obtain rfl := Except.error.inj (hstall.symm.trans hstall')
      obtain ⟨later, hcalled, hinit⟩ := hrecovers given hgiven
      obtain ⟨fresh, hsuccess, -⟩ := hfresh error failed hfirst 0 later hcalled hinit
      rw [hfirst] at hsuccess
      cases hsuccess
    · exact hnone given hgiven
  · intro error failed hfirst read later hcalled hinit
    obtain ⟨given, hgiven, -⟩ := hleftover error failed hfirst read later hcalled hinit
    exact absurd hgiven (hnone given)

theorem retriesAsFresh_iff_positiveCount :
    let first := Running.start
      (ofStages (membershipScope []) [.int 1, .boolean true, .int 2] positiveCount)
    first.init.1 = .error (.evaluation (.nonNumericNegation "Boolean")) ∧
    first.init.2.Called 0 first.init.2 ∧ first.init.2.init.1 = .ok () ∧
    ∃ given, Leftover (membershipScope []) [.int 1, .boolean true, .int 2] positiveCount given ∧
      ∀ n, first.init.2.init.2.answers n = Event.answers n (given.drop 0) := by
  intro first
  obtain ⟨-, hleftover⟩ := retriesAsFresh_iff (membershipScope [])
    [.int 1, .boolean true, .int 2] positiveCount
  have hfirst : first.init.1 = .error (.evaluation (.nonNumericNegation "Boolean")) := by
    decide +kernel
  have hsecond : first.init.2.init.1 = .ok () := by decide +kernel
  exact ⟨hfirst, .refl, hsecond,
    hleftover _ _ (Running.init_eq_of_fst hfirst) 0 _ .refl hsecond⟩

end ObjectQuery.Cursor
