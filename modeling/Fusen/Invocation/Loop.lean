import Fusen.Invocation.Invoke

/-!
# The turns of an invocation's loop

`attemptOnce_cases` says once what a turn does, and `Loop` presents the fuelled loop as
the succession of its turns (`executeAttempts_loop`), so that what a turn keeps is proved
of the loop by induction.
-/

namespace Fusen.Invocation

open Lib Contract Resilience

/-! ## The terminal -/

/-- What the terminal sees fail. -/
def CallFate.observed : CallFate → Option FailureClass
  | .expired | .answered .expired => some .timeout
  | .failed kind => some kind.failure
  | .answered (.failed e) => some (classifyError e)
  | _ => none

/-- The `Retry-After` of the answer that the terminal sees fail. -/
def CallFate.hint : CallFate → Option Nat
  | .answered (.failed e) => e.retryHint.retryAfter
  | _ => none

/-- Whether the request is handed to the transport. -/
def CallFate.sends : CallFate → Bool
  | .overloaded | .unencodable _ => false
  | .cancelled handed => handed
  | .expired | .failed _ | .answered _ | .dropped => true

/-- Whether the terminal comes to store its number in `attempts_started`. -/
def CallFate.starts : CallFate → Bool
  | .overloaded | .unencodable _ => false
  | _ => true

namespace AttemptTerminal

theorem call_events (attempt started : Nat) (fate : CallFate) :
    (call attempt started fate).events =
      (if fate.sends then [.sent attempt] else []) ++
        fate.observed.toList.map (.observed attempt) := by
  rcases fate with - | e | handed | - | kind | decode | -
  case answered => cases decode <;> rfl
  case cancelled => cases handed <;> rfl
  all_goals rfl

theorem call_started (attempt started : Nat) (fate : CallFate) :
    (call attempt started fate).side.started = if fate.starts then attempt else started := by
  rcases fate with - | e | handed | - | kind | decode | -
  case answered => cases decode <;> rfl
  all_goals rfl

theorem call_failure (attempt started : Nat) (fate : CallFate) :
    (call attempt started fate).side.observation.failure = fate.observed := by
  rcases fate with - | e | handed | - | kind | decode | -
  case answered => cases decode <;> rfl
  all_goals rfl

theorem call_retryAfter (attempt started : Nat) (fate : CallFate) :
    (call attempt started fate).side.observation.retryAfter = fate.hint := by
  rcases fate with - | e | handed | - | kind | decode | -
  case answered => cases decode <;> rfl
  all_goals rfl

end AttemptTerminal

theorem CallFate.sends_of_observed {fate : CallFate} {f : FailureClass}
    (h : fate.observed = some f) : fate.sends = true := by
  cases fate <;> first | rfl | exact nomatch h

/-! ## The attempt interceptors -/

namespace AttemptWorld

/-- Whether the request of the attempt is handed to the transport. -/
def sends (world : AttemptWorld) : Bool := reachesTerminal world.interceptors && world.fate.sends

/-- What the attempt's terminal, if it is called, sees fail. -/
def observed (world : AttemptWorld) : Option FailureClass :=
  if reachesTerminal world.interceptors then world.fate.observed else none

theorem sends_of_observed {world : AttemptWorld} {f : FailureClass}
    (h : world.observed = some f) : world.sends = true := by
  unfold observed at h
  unfold sends
  split at h
  · rename_i hreach
    rw [hreach, CallFate.sends_of_observed h]
    rfl
  · nomatch h

theorem ran_failure (world : AttemptWorld) (attempt started : Nat) :
    (world.ran attempt started).side.observation.failure = world.observed := by
  unfold ran observed
  rw [Next.run_side]
  split
  · exact AttemptTerminal.call_failure attempt started world.fate
  · rfl

theorem ran_retryAfter {world : AttemptWorld} {f : FailureClass} (h : world.observed = some f)
    (attempt started : Nat) :
    (world.ran attempt started).side.observation.retryAfter = world.fate.hint := by
  unfold observed at h
  unfold ran
  rw [Next.run_side]
  split at h
  · rename_i hreach
    rw [if_pos hreach]
    exact AttemptTerminal.call_retryAfter attempt started world.fate
  · nomatch h

theorem ran_started (world : AttemptWorld) (attempt started : Nat) :
    (world.ran attempt started).side.started =
      if reachesTerminal world.interceptors && world.fate.starts then attempt else started := by
  unfold ran
  rw [Next.run_side]
  cases reachesTerminal world.interceptors with
  | false => rfl
  | true => exact AttemptTerminal.call_started attempt started world.fate

/-- **What an attempt does**: it is sent, it observes, and responses are dropped. -/
theorem ran_events (world : AttemptWorld) (attempt started : Nat) :
    ∃ drops, (world.ran attempt started).events =
      (if world.sends then [.sent attempt] else []) ++
        world.observed.toList.map (.observed attempt) ++ drops ∧
      ∀ event ∈ drops, event.isDrop := by
  obtain ⟨drops, hevents, hdrops⟩ :=
    @Next.run_events _ (AttemptTerminal.call attempt started world.fate) ⟨started, .default⟩
      world.interceptors
  refine ⟨drops, ?_, hdrops⟩
  unfold ran
  rw [hevents, AttemptTerminal.call_events]
  unfold sends observed
  cases reachesTerminal world.interceptors <;> rfl

end AttemptWorld

/-! ## One turn -/

theorem mem_released {instances : List ServiceInstance} {event : Event}
    (h : event ∈ released instances) : ∃ endpoint, event = .released endpoint := by
  obtain ⟨x, -, rfl⟩ := List.mem_map.mp h
  exact ⟨x.endpoint, rfl⟩

theorem mem_selectEndpoint {client : Client} {world : SelectionWorld}
    {attempted : List ServiceEndpoint} {before : List Event}
    {result : Except Error SelectedEndpoint} {event : Event}
    (hselect : selectEndpoint client world attempted = (before, result)) (h : event ∈ before) :
    ∃ endpoint, event = .released endpoint := by
  replace h : event ∈ (selectEndpoint client world attempted).1 := by
    rw [hselect]
    exact h
  unfold selectEndpoint at h
  split at h
  · nomatch h
  · unfold chooseEligible at h
    split at h
    · nomatch h
    · split at h
      · exact mem_released h
      · exact mem_released h
      · split at h <;> exact mem_released h

def TurnOutcome.end? : TurnOutcome → Option LoopEnd
  | .succeeded s => some (.succeeded s)
  | .failed e => some (.failed e)
  | .dropped => some .dropped
  | .again _ => none

/-- The decision to retry after an attempt's failure. -/
def retryDecision (client : Client) (world : AttemptWorld) (attempt : Nat)
    (failure : FailureClass) : Option RetryDecision × BudgetState :=
  decideWithGuards world.policy (retryContext client world attempt failure) client.retry.budget
    world.budget world.now

def decidedEvent (client : Client) (world : AttemptWorld) (attempt : Nat)
    (failure : FailureClass) : Event :=
  .decided attempt (retryContext client world attempt failure)
    (retryDecision client world attempt failure).1 world.now world.budget
    (retryDecision client world attempt failure).2

/-- **What follows a failed attempt**: it is too late for the delay, or the decision is against
a retry, or a token is taken and the delay waited. -/
inductive Aftermath (client : Client) (world : AttemptWorld) (attempt : Nat)
    (endpoint : ServiceEndpoint) (started : Nat) (failure : FailureClass) (delay : Nat) (e : Error) :
    List Event × TurnOutcome → Prop
  | late (h : world.remaining ≤ delay) :
    Aftermath client world attempt endpoint started failure delay e ([], .failed ⟨e, failure⟩)
  | stopped (h : delay < world.remaining)
      (hdecision : (retryDecision client world attempt failure).1 ≠ some .retry) {e' : Error}
      (he : e' = e ∨ e' = retryPolicyPanic.withAttempts started) :
    Aftermath client world attempt endpoint started failure delay e
      ([decidedEvent client world attempt failure], .failed ⟨e', failure⟩)
  | granted (h : delay < world.remaining)
      (hdecision : (retryDecision client world attempt failure).1 = some .retry)
      {outcome : TurnOutcome}
      (houtcome : outcome = .again endpoint ∨ (outcome = .dropped ∧ world.sleep = .dropped) ∨
        outcome = .failed (.classify (cancelled.withAttempts started))) :
    Aftermath client world attempt endpoint started failure delay e
      ([decidedEvent client world attempt failure, .waiting attempt delay], outcome)

theorem retryOrStop_aftermath (client : Client) (world : AttemptWorld) (attempt : Nat)
    (endpoint : ServiceEndpoint) (started : Nat) (failure : FailureClass) (hint : Option Nat)
    (e : Error) :
    Aftermath client world attempt endpoint started failure (retryDelay client world attempt hint) e
      (retryOrStop client world attempt endpoint started failure hint e) := by
  unfold retryOrStop
  dsimp only
  by_cases hlate : world.remaining ≤ retryDelay client world attempt hint
  · rw [if_pos hlate]
    exact .late hlate
  have hdelay := Nat.lt_of_not_le hlate
  rw [if_neg hlate]
  rw [← retryDecision, ← decidedEvent]
  cases hdecision : (retryDecision client world attempt failure).1 with
  | none => exact .stopped hdelay (by rw [hdecision]; simp) (Or.inr rfl)
  | some decision =>
    cases decision with
    | stop => exact .stopped hdelay (by rw [hdecision]; simp) (Or.inl rfl)
    | retry =>
      refine .granted hdelay hdecision ?_
      cases world.sleep with
      | elapsed => exact Or.inl rfl
      | cancelled => exact Or.inr (Or.inr rfl)
      | dropped => exact Or.inr (Or.inl ⟨rfl, rfl⟩)

/-- **What one turn does.** -/
inductive TurnCase (client : Client) (world : AttemptWorld) (attempted : List ServiceEndpoint)
    (attempt started : Nat) : Turn → Prop
  | unselected {before : List Event} {e : Error}
      (h : selectEndpoint client world.toSelectionWorld attempted = (before, .error e)) :
    TurnCase client world attempted attempt started ⟨before, started, .failed (.classify e)⟩
  | settled {before : List Event} {selected : SelectedEndpoint}
      (h : selectEndpoint client world.toSelectionWorld attempted = (before, .ok selected)) :
    TurnCase client world attempted attempt started
      ⟨before ++ .selected attempt selected.instance_.endpoint ::
          (world.ran attempt started).events ++
          (settle client world attempt selected.instance_.endpoint
            (world.ran attempt started).side (world.ran attempt started).result).1,
        (world.ran attempt started).side.started,
        (settle client world attempt selected.instance_.endpoint
          (world.ran attempt started).side (world.ran attempt started).result).2⟩

theorem attemptOnce_case (client : Client) (world : AttemptWorld)
    (attempted : List ServiceEndpoint) (attempt started : Nat) :
    TurnCase client world attempted attempt started
      (attemptOnce client world attempted attempt started) := by
  unfold attemptOnce
  split
  · rename_i h
    exact .unselected h
  · rename_i h
    exact .settled h

theorem AttemptWorld.mem_ran {world : AttemptWorld} {attempt started : Nat} {event : Event}
    (h : event ∈ (world.ran attempt started).events) :
    (event = .sent attempt ∧ world.sends = true) ∨
      (∃ f, world.observed = some f ∧ event = .observed attempt f) ∨ event.isDrop := by
  obtain ⟨drops, hevents, hdrops⟩ := world.ran_events attempt started
  rw [hevents, List.mem_append, List.mem_append] at h
  rcases h with (h | h) | h
  · split at h
    · rename_i hsends
      exact Or.inl ⟨List.mem_singleton.mp h, hsends⟩
    · nomatch h
  · obtain ⟨f, hf, rfl⟩ := List.mem_map.mp h
    exact Or.inr (Or.inl ⟨f, Option.mem_toList.mp hf, rfl⟩)
  · exact Or.inr (Or.inr (hdrops event h))

/-- The settlement of the attempt that ended in `e`, up to the decision to retry. -/
theorem settleFailure_events (client : Client) (world : AttemptWorld) (attempt : Nat)
    (endpoint : ServiceEndpoint) (called : Called) (e : Error) :
    ∃ after, Aftermath client world attempt endpoint called.started
        (attemptFailure called.observation e)
        (retryDelay client world attempt (retryAfter called.observation e))
        (e.withAttempts called.started) after ∧
      settleFailure client world attempt endpoint called e =
        (.endpointBreaker attempt (permitOutcome attempt called) ::
          (if attempt ≤ called.started then
            [.attemptFinished attempt (some (attemptFailure called.observation e))] else []) ++
          after.1, after.2) :=
  ⟨_, retryOrStop_aftermath client world attempt endpoint called.started _ _ _, rfl⟩

/-- What settles the attempt `n`. -/
def Event.settles (n : Nat) : Event → Prop
  | .attemptFinished m _ | .endpointBreaker m _ => m = n
  | _ => False

theorem Event.isSettlement_of_settles {event : Event} {n : Nat} (h : event.settles n) :
    event.isSettlement = true := by
  cases event <;> first | rfl | exact absurd h id

/-- The events of a settlement beside the decision to retry. -/
theorem mem_settle {client : Client} {world : AttemptWorld} {attempt : Nat}
    {endpoint : ServiceEndpoint} {called : Called} {result : Option InterceptorResult}
    {event : Event} (h : event ∈ (settle client world attempt endpoint called result).1) :
    event.settles attempt ∨
      ∃ e failure, result = some (.error e) ∧
        failure = attemptFailure called.observation e ∧
        let delay := retryDelay client world attempt (retryAfter called.observation e)
        delay < world.remaining ∧
          (event = decidedEvent client world attempt failure ∨
            event = .waiting attempt delay ∧
              (retryDecision client world attempt failure).1 = some .retry ∧
              decidedEvent client world attempt failure ∈
                (settle client world attempt endpoint called result).1) := by
  rcases result with - | e | response
  · rw [List.mem_singleton.mp h]
    exact Or.inl rfl
  · obtain ⟨after, hafter, hsettle⟩ := settleFailure_events client world attempt endpoint called e
    replace hsettle : settle client world attempt endpoint called (some (.error e)) = _ := hsettle
    rw [hsettle] at h ⊢
    rw [List.mem_append, List.mem_cons] at h
    rcases h with (rfl | h) | h
    · exact Or.inl rfl
    · split at h
      · rw [List.mem_singleton.mp h]
        exact Or.inl rfl
      · nomatch h
    · refine Or.inr ⟨e, _, rfl, rfl, ?_⟩
      cases hafter with
      | late => nomatch h
      | stopped hdelay => exact ⟨hdelay, Or.inl (List.mem_singleton.mp h)⟩
      | granted hdelay hdecision =>
        rcases List.mem_cons.mp h with rfl | h
        · exact ⟨hdelay, Or.inl rfl⟩
        · exact ⟨hdelay, Or.inr ⟨List.mem_singleton.mp h, hdecision,
            List.mem_append_right _ (List.mem_cons_self ..)⟩⟩
  · replace h : event ∈ (settleSuccess attempt called response).1 := h
    unfold settleSuccess at h
    refine Or.inl ?_
    split at h
    · rcases List.mem_cons.mp h with rfl | h
      · rfl
      · rw [List.mem_singleton.mp h]
        rfl
    · split at h
      · nomatch h
      · rw [List.mem_singleton.mp h]
        rfl

section Turns

variable {client : Client} {world : AttemptWorld} {attempted : List ServiceEndpoint}
  {attempt started : Nat}

theorem attemptOnce_of_selected {before : List Event} {selected : SelectedEndpoint}
    (h : selectEndpoint client world.toSelectionWorld attempted = (before, .ok selected)) :
    attemptOnce client world attempted attempt started =
      ⟨before ++ .selected attempt selected.instance_.endpoint ::
          (world.ran attempt started).events ++
          (settle client world attempt selected.instance_.endpoint
            (world.ran attempt started).side (world.ran attempt started).result).1,
        (world.ran attempt started).side.started,
        (settle client world attempt selected.instance_.endpoint
          (world.ran attempt started).side (world.ran attempt started).result).2⟩ := by
  unfold attemptOnce
  rw [h]

theorem ran_subset {before : List Event} {selected : SelectedEndpoint}
    (h : selectEndpoint client world.toSelectionWorld attempted = (before, .ok selected)) :
    (world.ran attempt started).events ⊆
      (attemptOnce client world attempted attempt started).events := by
  rw [attemptOnce_of_selected h]
  intro event hevent
  exact List.mem_append_left _ (List.mem_append_right _ (List.mem_cons_of_mem _ hevent))

/-- The events of a turn: the breakers' permits, and then the attempt. -/
theorem attemptOnce_split :
    ∃ before after, (attemptOnce client world attempted attempt started).events =
        before ++ after ∧ (∀ event ∈ before, ∃ x, event = .released x) ∧
      (after = [] ∨ ∃ selected, selectEndpoint client world.toSelectionWorld attempted =
        (before, .ok selected) ∧ after = .selected attempt selected.instance_.endpoint ::
          (world.ran attempt started).events ++
          (settle client world attempt selected.instance_.endpoint
            (world.ran attempt started).side (world.ran attempt started).result).1) := by
  have hcase := attemptOnce_case client world attempted attempt started
  generalize attemptOnce client world attempted attempt started = turn at hcase
  cases hcase with
  | @unselected before e h =>
    refine ⟨before, [], (List.append_nil _).symm, fun event hevent => mem_selectEndpoint h hevent,
      Or.inl rfl⟩
  | @settled before selected h =>
    refine ⟨before, _, by rw [List.append_assoc],
      fun event hevent => mem_selectEndpoint h hevent, Or.inr ⟨selected, h, rfl⟩⟩

theorem mem_attemptOnce {event : Event}
    (h : event ∈ (attemptOnce client world attempted attempt started).events) :
    (∃ x, event = .released x) ∨ ∃ before selected,
      selectEndpoint client world.toSelectionWorld attempted = (before, .ok selected) ∧
      (event = .selected attempt selected.instance_.endpoint ∨
        event ∈ (world.ran attempt started).events ∨
        event ∈ (settle client world attempt selected.instance_.endpoint
          (world.ran attempt started).side (world.ran attempt started).result).1) ∧
      (settle client world attempt selected.instance_.endpoint
          (world.ran attempt started).side (world.ran attempt started).result).1 ⊆
        (attemptOnce client world attempted attempt started).events := by
  obtain ⟨before, after, hevents, hbefore, hafter⟩ :=
    @attemptOnce_split client world attempted attempt started
  rw [hevents] at h ⊢
  rcases List.mem_append.mp h with h | h
  · exact Or.inl (hbefore event h)
  · rcases hafter with rfl | ⟨selected, hselect, rfl⟩
    · nomatch h
    · rw [List.mem_append, List.mem_cons] at h
      refine Or.inr ⟨before, selected, hselect, or_assoc.mp h, fun event hevent => ?_⟩
      exact List.mem_append_right _ (List.mem_append_right _ hevent)

end Turns

/-! ## The loop -/

/-- A turn that goes on: its attempt failed, and was granted a retry. -/
structure GoesOn (client : Client) (world : AttemptWorld) (attempted : List ServiceEndpoint)
    (attempt started : Nat) (endpoint : ServiceEndpoint) (e : Error) : Prop where
  selected : ∃ before selected, endpoint = selected.instance_.endpoint ∧
    selectEndpoint client world.toSelectionWorld attempted = (before, .ok selected)
  result : (world.ran attempt started).result = some (.error e)
  decision : (retryDecision client world attempt
    (attemptFailure (world.ran attempt started).side.observation e)).1 = some .retry
  decided : decidedEvent client world attempt
      (attemptFailure (world.ran attempt started).side.observation e) ∈
    (attemptOnce client world attempted attempt started).events
  waiting : ∃ delay, Event.waiting attempt delay ∈
    (attemptOnce client world attempted attempt started).events

theorem goesOn_of_again {client : Client} {world : AttemptWorld}
    {attempted : List ServiceEndpoint} {attempt started : Nat} {endpoint : ServiceEndpoint}
    (h : (attemptOnce client world attempted attempt started).outcome = .again endpoint) :
    ∃ e, GoesOn client world attempted attempt started endpoint e := by
  have hcase := attemptOnce_case client world attempted attempt started
  cases hturn : attemptOnce client world attempted attempt started with
  | mk events after outcome =>
  rw [hturn] at h hcase
  cases hcase with
  | unselected => nomatch h
  | @settled before selected hselect =>
    rcases hresult : (world.ran attempt started).result with - | e | response
    · rw [hresult] at h
      nomatch h
    · obtain ⟨after, hafter, hsettle⟩ := settleFailure_events client world attempt
        selected.instance_.endpoint (world.ran attempt started).side e
      rw [hresult] at h hturn
      replace h : (settleFailure client world attempt selected.instance_.endpoint
        (world.ran attempt started).side e).2 = .again endpoint := h
      rw [hsettle] at h
      cases hafter with
      | late => nomatch h
      | stopped => nomatch h
      | @granted hdelay hdecision outcome houtcome =>
        obtain rfl : outcome = .again endpoint := h
        obtain rfl : endpoint = selected.instance_.endpoint := by
          rcases houtcome with houtcome | ⟨houtcome, -⟩ | houtcome
          · exact TurnOutcome.again.inj houtcome
          · nomatch houtcome
          · nomatch houtcome
        have hevents : ∀ event ∈ [decidedEvent client world attempt
            (attemptFailure (world.ran attempt started).side.observation e),
            Event.waiting attempt (retryDelay client world attempt
              (retryAfter (world.ran attempt started).side.observation e))],
            event ∈ (attemptOnce client world attempted attempt started).events := by
          intro event hevent
          rw [hturn]
          refine List.mem_append_right _ ?_
          show event ∈ (settleFailure client world attempt selected.instance_.endpoint
            (world.ran attempt started).side e).1
          rw [hsettle]
          exact List.mem_append_right _ hevent
        exact ⟨e, ⟨before, selected, rfl, hselect⟩, hresult, hdecision,
          hevents _ (List.mem_cons_self ..),
          ⟨_, hevents _ (List.mem_cons_of_mem _ (List.mem_cons_self ..))⟩⟩
    · rw [hresult] at h
      nomatch h

theorem GoesOn.granted {client : Client} {world : AttemptWorld}
    {attempted : List ServiceEndpoint} {attempt started : Nat} {endpoint : ServiceEndpoint}
    {e : Error} (h : GoesOn client world attempted attempt started endpoint e) :
    Granted world.policy (retryContext client world attempt
      (attemptFailure (world.ran attempt started).side.observation e)) :=
  (decideWithGuards_retry_iff.mp (Prod.ext h.decision rfl)).1

/-- The succession of the turns from an attempt on. -/
inductive Loop (client : Client) (worlds : Nat → AttemptWorld) :
    List ServiceEndpoint → Nat → Nat → LoopRun → Prop
  | last {attempted : List ServiceEndpoint} {attempt started : Nat} {end_ : LoopEnd}
      (hattempt : LoopAttempt client.retry.maxAttempts client.method.allowsRetries attempt)
      (hend : (attemptOnce client (worlds attempt) attempted attempt started).outcome.end? =
        some end_) :
    Loop client worlds attempted attempt started
      ⟨(attemptOnce client (worlds attempt) attempted attempt started).events,
        (attemptOnce client (worlds attempt) attempted attempt started).started, end_⟩
  | again {attempted : List ServiceEndpoint} {attempt started : Nat} {endpoint : ServiceEndpoint}
      {rest : LoopRun}
      (hattempt : LoopAttempt client.retry.maxAttempts client.method.allowsRetries attempt)
      (hagain : (attemptOnce client (worlds attempt) attempted attempt started).outcome =
        .again endpoint)
      (hrest : Loop client worlds (endpoint :: attempted) (attempt + 1)
        (attemptOnce client (worlds attempt) attempted attempt started).started rest) :
    Loop client worlds attempted attempt started
      ⟨(attemptOnce client (worlds attempt) attempted attempt started).events ++ rest.events,
        rest.started, rest.end_⟩

theorem attemptsFrom_loop {client : Client} {worlds : Nat → AttemptWorld} {fuel : Nat}
    {attempted : List ServiceEndpoint} {attempt started : Nat}
    (hattempt : LoopAttempt client.retry.maxAttempts client.method.allowsRetries attempt)
    (hfuel : HARD_MAX_ATTEMPTS < fuel + attempt) :
    Loop client worlds attempted attempt started
      (attemptsFrom client worlds fuel attempted attempt started) := by
  have hlimit := (hardAttemptLimit_le client.retry.maxAttempts).1
  induction fuel generalizing attempted attempt started with
  | zero =>
    have hbound := hattempt.bounds.2.1
    omega
  | succ fuel ih =>
    unfold attemptsFrom
    dsimp only
    cases houtcome : (attemptOnce client (worlds attempt) attempted attempt started).outcome with
    | succeeded s => exact .last hattempt (by rw [houtcome]; rfl)
    | failed e => exact .last hattempt (by rw [houtcome]; rfl)
    | dropped => exact .last hattempt (by rw [houtcome]; rfl)
    | again endpoint =>
      obtain ⟨e, hgoes⟩ := goesOn_of_again houtcome
      have hnext := LoopAttempt.next hattempt hgoes.granted
      have hbound := hnext.bounds.2.1
      unfold HARD_MAX_ATTEMPTS at hlimit hfuel
      have hsucc : min (attempt + 1) 255 = attempt + 1 := by omega
      rw [hsucc] at hnext ⊢
      refine .again hattempt houtcome (ih hnext ?_)
      unfold HARD_MAX_ATTEMPTS
      omega

/-- **The loop is the succession of its turns from the first attempt on**; it never runs out
of fuel. -/
theorem executeAttempts_loop (client : Client) (worlds : Nat → AttemptWorld) :
    Loop client worlds [] 1 0 (executeAttempts client worlds) :=
  attemptsFrom_loop .first (by decide)

/-! ## The rest of an invocation -/

theorem mem_finishPermits {endpointPermit : Option Nat} {servicePermit : Bool}
    {outcome : PermitOutcome} {event : Event}
    (h : event ∈ finishPermits endpointPermit servicePermit outcome) :
    (∃ attempt ∈ endpointPermit, event = .endpointBreaker attempt outcome) ∨
      servicePermit = true ∧ event = .serviceBreaker outcome := by
  unfold finishPermits at h
  rcases List.mem_append.mp h with h | h
  · obtain ⟨attempt, hattempt, rfl⟩ := List.mem_map.mp h
    exact Or.inl ⟨attempt, Option.mem_toList.mp hattempt, rfl⟩
  · split at h
    · rename_i hpermit
      exact Or.inr ⟨hpermit, List.mem_singleton.mp h⟩
    · nomatch h

theorem mem_finishAttempt {response : Response} {failure : Option FailureClass} {event : Event}
    (h : event ∈ response.finishAttempt failure) : ∃ n, event = .attemptFinished n failure := by
  obtain ⟨n, -, rfl⟩ := List.mem_map.mp h
  exact ⟨n, rfl⟩

theorem mem_succeedEndpointBreaker {held : Option Nat} {event : Event}
    (h : event ∈ succeedEndpointBreaker held) : ∃ n, event = .endpointBreaker n .success := by
  obtain ⟨n, -, rfl⟩ := List.mem_map.mp h
  exact ⟨n, rfl⟩

theorem isSettlement_finishResponse {world : World} {side : TerminalSide} {response : Response}
    {event : Event} (h : event ∈ (finishResponse world side response).1) :
    event.isSettlement = true := by
  have hpermits : ∀ {e s o}, event ∈ finishPermits e s o → event.isSettlement = true := by
    intro e s o h
    rcases mem_finishPermits h with ⟨n, -, rfl⟩ | ⟨-, rfl⟩ <;> rfl
  have hattempt : ∀ {f}, event ∈ response.finishAttempt f → event.isSettlement = true := by
    intro f h
    obtain ⟨n, rfl⟩ := mem_finishAttempt h
    rfl
  have hsucceeded : event ∈ (if response.tracksEndpointBreaker then []
      else succeedEndpointBreaker side.heldEndpoint) → event.isSettlement = true := by
    intro h
    split at h
    · nomatch h
    · obtain ⟨n, rfl⟩ := mem_succeedEndpointBreaker h
      rfl
  have hfailure : ∀ {p}, event ∈ finishResultFailure response p → event.isSettlement = true := by
    intro p h
    unfold finishResultFailure at h
    split at h
    · rw [List.mem_append, List.mem_append] at h
      rcases h with (h | h) | h
      · obtain ⟨n, -, rfl⟩ := List.mem_map.mp h
        rfl
      · exact hattempt h
      · exact hpermits h
    · exact (List.mem_append.mp h).elim hattempt hpermits
  unfold finishResponse at h
  dsimp only at h
  split at h
  · rw [List.mem_append, List.mem_append] at h
    exact h.elim (·.elim hsucceeded hattempt) hpermits
  · exact (List.mem_append.mp h).elim hsucceeded hfailure
  · exact (List.mem_append.mp h).elim hsucceeded hfailure

theorem execute_events (client : Client) (world : World) :
    ∃ before after, (InvocationTerminal.execute client world).events = before ++ after ∧
      (before = [] ∨ before = (executeAttempts client world.attempts).events) ∧
      ∀ event ∈ after, event.isSettlement = true := by
  unfold InvocationTerminal.execute
  split
  · exact ⟨[], [], rfl, Or.inl rfl, nofun⟩
  · dsimp only
    generalize executeAttempts client world.attempts = run
    have hone : ∀ outcome, ∀ event ∈ [Event.serviceBreaker outcome], event.isSettlement = true := by
      intro outcome event h
      rw [List.mem_singleton.mp h]
      rfl
    rcases hend : run.end_ with s | e | - | -
    · unfold InvocationTerminal.finish
      dsimp only
      split
      · exact ⟨_, _, rfl, Or.inr rfl, hone _⟩
      · split
        · exact ⟨_, [], (List.append_nil _).symm, Or.inr rfl, nofun⟩
        · exact ⟨_, _, rfl, Or.inr rfl, hone _⟩
    · exact ⟨_, _, rfl, Or.inr rfl, hone _⟩
    · exact ⟨_, _, rfl, Or.inr rfl, hone _⟩
    · exact ⟨_, _, rfl, Or.inr rfl, hone _⟩

theorem finishCall_events (world : World) (ran : Ran TerminalSide) :
    ∃ after, (finishCall world ran).events = ran.events ++ after ∧
      ∀ event ∈ after, event.isSettlement = true := by
  refine ⟨_, rfl, fun event h => ?_⟩
  rcases hresult : ran.result with - | e | response
  · rw [hresult] at h
    obtain ⟨n, -, rfl⟩ := List.mem_map.mp h
    rfl
  · rw [hresult] at h
    obtain ⟨n, rfl⟩ := mem_succeedEndpointBreaker h
    rfl
  · rw [hresult] at h
    exact isSettlement_finishResponse h

/-- **What an invocation does beside its attempts is to settle them.** -/
theorem invoke_events (client : Client) (world : World) :
    ∃ before after, (invoke client world).events = before ++ after ∧
      (before = [] ∨ before = (executeAttempts client world.attempts).events) ∧
      ∀ event ∈ after, event.isSettlement = true := by
  have hrefused : ∀ e, ∃ before after, (refused world e).events = before ++ after ∧
      (before = [] ∨ before = (executeAttempts client world.attempts).events) ∧
      ∀ event ∈ after, event.isSettlement = true := fun e => ⟨[], [], rfl, Or.inl rfl, nofun⟩
  unfold invoke
  split
  · exact hrefused _
  split
  · exact hrefused _
  split
  · exact hrefused _
  · exact hrefused _
  split
  · exact hrefused _
  obtain ⟨drops, hran, hdrops⟩ := @Next.run_events _ (InvocationTerminal.execute client world)
    InvocationTerminal.idle world.callInterceptors
  obtain ⟨before, after, hexecute, hbefore, hafter⟩ := execute_events client world
  obtain ⟨tail, hfinish, htail⟩ := finishCall_events world
    (Next.run (InvocationTerminal.execute client world) InvocationTerminal.idle
      world.callInterceptors)
  have hsettled : ∀ event ∈ drops ++ tail, event.isSettlement = true := by
    intro event h
    rcases List.mem_append.mp h with h | h
    · exact Event.isSettlement_of_isDrop (hdrops event h)
    · exact htail event h
  rw [hfinish, hran]
  split
  · rw [hexecute]
    refine ⟨before, after ++ (drops ++ tail), by simp, hbefore, fun event h => ?_⟩
    exact (List.mem_append.mp h).elim (hafter event) (hsettled event)
  · exact ⟨[], drops ++ tail, by simp, Or.inl rfl, hsettled⟩

end Fusen.Invocation
