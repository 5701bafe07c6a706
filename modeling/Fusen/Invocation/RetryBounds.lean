import Fusen.Invocation.Loop

/-!
# The bounds of the retry loop

`invoke_retryBounds`: whatever the interceptors, the endpoint snapshots, the routers, the
clock and the policy do, an invocation keeps to its attempts, pays for each retry with one
token, waits as it was told and within its time, and comes back to an endpoint only for
want of another.
-/

namespace Fusen.Invocation

open Lib Contract Resilience

/-! ## Counting -/

def Event.isSend : Event → Bool
  | .sent _ => true
  | _ => false

/-- The physical attempts: the requests handed to the transport. -/
def requestsSent (events : List Event) : Nat := events.countP Event.isSend

@[simp] theorem requestsSent_append (a b : List Event) :
    requestsSent (a ++ b) = requestsSent a + requestsSent b := List.countP_append

theorem requestsSent_eq_zero {events : List Event} (h : ∀ event ∈ events, event.isSend = false) :
    requestsSent events = 0 :=
  List.countP_eq_zero.mpr fun event hevent => by simp [h event hevent]

/-! ## What the bounds are -/

/-- Each selection of the events, with the endpoints `attempted` before them, is of an
untried endpoint if there is one. -/
def SelectsUntried (client : Client) (worlds : Nat → AttemptWorld) :
    List ServiceEndpoint → List Event → Prop
  | _, [] => True
  | attempted, .selected n endpoint :: events =>
    (endpoint ∈ attempted → ∀ x ∈ compatible client (worlds n).toSelectionWorld,
      x.endpoint ∈ attempted) ∧ SelectsUntried client worlds (endpoint :: attempted) events
  | attempted, _ :: events => SelectsUntried client worlds attempted events

/-- How an attempt that ended in `e` failed, and the delay it was asked for: as its terminal
saw it, or if that saw nothing fail as `e` says. -/
inductive Fails (world : AttemptWorld) (e : Error) : FailureClass → Option Nat → Prop
  | observed {failure : FailureClass} (h : world.observed = some failure) :
    Fails world e failure world.fate.hint
  | unobserved (h : world.observed = none) :
    Fails world e (classifyError e) e.retryHint.retryAfter

/-- A decision to retry or not, after attempt `n`: it is asked for with the failure of that
attempt and in time, and takes a token if and only if it grants a retry. -/
structure SoundDecision (client : Client) (world : AttemptWorld) (n : Nat)
    (context : RetryDecisionContext) (decision : Option RetryDecision) (now : Nat)
    (before after : BudgetState) : Prop where
  asked : ∃ started e failure hint, (world.ran n started).result = some (.error e) ∧
    Fails world e failure hint ∧
    context = .new n client.retry.maxAttempts client.method.allowsRetries failure world.remaining ∧
    max (fullJitterBackoff client.retry.backoffBase client.retry.backoffCap n world.draw)
      (hint.getD 0) < world.remaining
  granted : decision = some .retry → Granted world.policy context ∧
    client.retry.budget.tryAcquire before now = (true, after) ∧
    after.scaledTokens + TOKEN_SCALE = (client.retry.budget.refill before now).scaledTokens
  refused : ¬ Granted world.policy context → decision ≠ some .retry ∧ after = before
  untaken : decision ≠ some .retry →
    after = before ∨ after = client.retry.budget.refill before now

/-- A wait after attempt `n`. -/
structure SoundWait (world : AttemptWorld) (n delay : Nat) : Prop where
  hint : ∃ started e failure hint, (world.ran n started).result = some (.error e) ∧
    Fails world e failure hint ∧ ∀ asked ∈ hint, asked ≤ delay
  intime : delay < world.remaining

/-- A grant after attempt `n`. -/
def Event.grants (n : Nat) : Event → Prop
  | .decided m _ decision _ _ _ => m = n ∧ decision = some .retry
  | _ => False

def Event.isDecision (n : Nat) : Event → Bool
  | .decided m _ _ _ _ _ => m == n
  | _ => false

structure RetryBounds (client : Client) (worlds : Nat → AttemptWorld) (events : List Event) :
    Prop where
  attempts : requestsSent events ≤ min client.retry.maxAttempts 3
  single : client.method.allowsRetries = false → requestsSent events ≤ 1
  decisions : ∀ n context decision now before after,
    .decided n context decision now before after ∈ events →
      SoundDecision client (worlds n) n context decision now before after
  /-- A further attempt was granted, once. -/
  further : ∀ n endpoint, .selected n endpoint ∈ events → n = 1 ∨
    ∃ event ∈ events, event.grants (n - 1)
  once : ∀ n, events.countP (Event.isDecision n) ≤ 1
  waits : ∀ n delay, .waiting n delay ∈ events → SoundWait (worlds n) n delay ∧
    ∃ event ∈ events, event.grants n
  selections : SelectsUntried client worlds [] events

/-! ## Selection -/

theorem validateRouterOutput_mem {input output : List ServiceInstance}
    (h : validateRouterOutput input output = .ok ()) {x : ServiceInstance} (hx : x ∈ output) :
    ∃ y ∈ input, y.endpoint = x.endpoint := by
  induction output generalizing input with
  | nil => cases hx
  | cons z output ih =>
    unfold validateRouterOutput at h
    split at h
    · rename_i hany
      rcases List.mem_cons.mp hx with rfl | hx
      · obtain ⟨y, hy, hsame⟩ := List.any_eq_true.mp hany
        simp only [sameInstance, Bool.and_eq_true, decide_eq_true_eq] at hsame
        exact ⟨y, hy, hsame.1.1.1.2⟩
      · obtain ⟨y, hy, hendpoint⟩ := ih h hx
        exact ⟨y, List.mem_of_mem_eraseP hy, hendpoint⟩
    · cases h

/-- Routers only narrow what they are given. -/
theorem route_mem {routed output : List ServiceInstance} {routers : List Router}
    (h : route routed routers = .ok output) {x : ServiceInstance} (hx : x ∈ output) :
    ∃ y ∈ routed, y.endpoint = x.endpoint := by
  induction routers generalizing routed with
  | nil =>
    cases h
    exact ⟨x, hx, rfl⟩
  | cons router routers ih =>
    unfold route at h
    split at h
    · nomatch h
    · nomatch h
    · split at h
      · nomatch h
      · rename_i hvalid
        obtain ⟨y, hy, hendpoint⟩ := ih h
        obtain ⟨z, hz, hz'⟩ := validateRouterOutput_mem hvalid hy
        exact ⟨z, hz, hz'.trans hendpoint⟩

theorem mem_eligible {grants : Nat → Bool} {routed : List ServiceInstance} {x : ServiceInstance}
    (h : x ∈ eligible grants routed) : x ∈ routed := by
  obtain ⟨⟨y, i⟩, hy, rfl⟩ := List.mem_map.mp h
  exact (List.mem_zipIdx' (List.mem_filter.mp hy).1).2 ▸ List.getElem_mem _

/-- **An endpoint that was tried is selected only if all compatible ones were.** -/
theorem selectEndpoint_tried {client : Client} {world : SelectionWorld}
    {attempted : List ServiceEndpoint} {before : List Event} {selected : SelectedEndpoint}
    (h : selectEndpoint client world attempted = (before, .ok selected))
    (htried : selected.instance_.endpoint ∈ attempted) :
    ∀ x ∈ compatible client world, x.endpoint ∈ attempted := by
  by_contra hfresh
  push Not at hfresh
  obtain ⟨x, hx, hx'⟩ := hfresh
  have hany : (compatible client world).any (fun x => !attempted.contains x.endpoint) = true :=
    List.any_eq_true.mpr ⟨x, hx, by simpa using hx'⟩
  unfold selectEndpoint at h
  split at h
  · nomatch h
  · rename_i routed hroutable
    unfold routable at hroutable
    split at hroutable
    · nomatch hroutable
    · dsimp only at hroutable
      split at hroutable
      · nomatch hroutable
      · split at hroutable
        · nomatch hroutable
        · rename_i output hroute
          split at hroutable
          · nomatch hroutable
          cases hroutable
          unfold chooseEligible at h
          split at h
          · nomatch h
          split at h
          · nomatch h
          · nomatch h
          · split at h
            · rename_i y hy
              obtain ⟨rfl⟩ : SelectedEndpoint.of client y = selected :=
                Except.ok.inj (Prod.mk.inj h).2
              obtain ⟨z, hz, hendpoint⟩ := route_mem hroute (mem_eligible (List.mem_of_getElem? hy))
              unfold untried at hz
              rw [if_pos hany] at hz
              have hfresh := (List.mem_filter.mp hz).2
              rw [hendpoint] at hfresh
              have hnot : y.endpoint ∉ attempted := by simpa using hfresh
              exact hnot htried
            · nomatch h

def Event.isSelection : Event → Bool
  | .selected _ _ => true
  | _ => false

section Selections

variable {client : Client} {worlds : Nat → AttemptWorld}

theorem selectsUntried_append {attempted : List ServiceEndpoint} {a b : List Event}
    (ha : ∀ event ∈ a, event.isSelection = false) :
    SelectsUntried client worlds attempted (a ++ b) ↔ SelectsUntried client worlds attempted b := by
  induction a with
  | nil => rfl
  | cons event a ih =>
    have hevent := ha event (List.mem_cons_self ..)
    have hrest := ih fun e he => ha e (List.mem_cons_of_mem event he)
    cases event <;> first | exact hrest | nomatch hevent

theorem selectsUntried_of_not {attempted : List ServiceEndpoint} {events : List Event}
    (h : ∀ event ∈ events, event.isSelection = false) :
    SelectsUntried client worlds attempted events := by
  rw [← List.append_nil events]
  exact (selectsUntried_append h).mpr trivial

theorem selectsUntried_append_right {attempted : List ServiceEndpoint} {a b : List Event}
    (ha : SelectsUntried client worlds attempted a)
    (hb : ∀ event ∈ b, event.isSelection = false) :
    SelectsUntried client worlds attempted (a ++ b) := by
  induction a generalizing attempted with
  | nil => exact selectsUntried_of_not hb
  | cons event a ih =>
    cases event with
    | selected n endpoint => exact ⟨ha.1, ih ha.2⟩
    | _ => exact ih ha

end Selections

/-! ## One turn -/

theorem Event.plain_of_isSettlement {event : Event} (h : event.isSettlement = true) :
    event.isSend = false ∧ event.isSelection = false ∧ ∀ n, event.isDecision n = false := by
  cases event <;> first | exact ⟨rfl, rfl, fun _ => rfl⟩ | nomatch h

section Turns

variable {client : Client} {world : AttemptWorld} {attempted : List ServiceEndpoint}
  {attempt started : Nat} {endpoint : ServiceEndpoint}

theorem requestsSent_ran :
    requestsSent (world.ran attempt started).events = if world.sends then 1 else 0 := by
  obtain ⟨drops, hevents, hdrops⟩ := world.ran_events attempt started
  have hzero : requestsSent drops = 0 := requestsSent_eq_zero fun event h =>
    (Event.plain_of_isSettlement (Event.isSettlement_of_isDrop (hdrops event h))).1
  rw [hevents, requestsSent_append, requestsSent_append, hzero]
  cases world.observed <;> cases world.sends <;> rfl

theorem mem_ran_plain {event : Event} (h : event ∈ (world.ran attempt started).events) :
    event.isSelection = false ∧ (∀ n, event.isDecision n = false) ∧
      ∀ n delay, event ≠ .waiting n delay := by
  rcases AttemptWorld.mem_ran h with ⟨rfl, -⟩ | ⟨f, -, rfl⟩ | hdrop
  · exact ⟨rfl, fun _ => rfl, nofun⟩
  · exact ⟨rfl, fun _ => rfl, nofun⟩
  · cases event <;> first | exact absurd hdrop id | exact ⟨rfl, fun _ => rfl, nofun⟩

theorem ran_fails (world : AttemptWorld) (attempt started : Nat) (e : Error) :
    Fails world e (attemptFailure (world.ran attempt started).side.observation e)
      (retryAfter (world.ran attempt started).side.observation e) := by
  unfold attemptFailure retryAfter
  rw [world.ran_failure attempt started]
  cases h : world.observed with
  | none => exact .unobserved h
  | some failure =>
    rw [Option.isSome_some, if_pos rfl, AttemptWorld.ran_retryAfter h]
    exact .observed h

theorem mem_settle_plain {called : Called} {result : Option InterceptorResult} {event : Event}
    (h : event ∈ (settle client world attempt endpoint called result).1) :
    event.isSend = false ∧ event.isSelection = false := by
  rcases mem_settle h with h | ⟨e, failure, -, -, -, rfl | ⟨rfl, -⟩⟩
  · have hplain := Event.plain_of_isSettlement (Event.isSettlement_of_settles h)
    exact ⟨hplain.1, hplain.2.1⟩
  · exact ⟨rfl, rfl⟩
  · exact ⟨rfl, rfl⟩

theorem settle_decides_once (called : Called) (result : Option InterceptorResult) (n : Nat) :
    ((settle client world attempt endpoint called result).1).countP (Event.isDecision n) ≤
      if n = attempt then 1 else 0 := by
  have hnone : ∀ events : List Event, (∀ event ∈ events, event.isSettlement = true) →
      events.countP (Event.isDecision n) = 0 := fun events h =>
    List.countP_eq_zero.mpr fun event hevent => by
      simp [(Event.plain_of_isSettlement (h event hevent)).2.2 n]
  rcases result with - | e | response
  · exact Nat.le_trans (Nat.le_of_eq (hnone _ fun event h => by
      rw [List.mem_singleton.mp h]; rfl)) (Nat.zero_le _)
  · obtain ⟨after, hafter, hsettle⟩ := settleFailure_events client world attempt endpoint called e
    show (settleFailure client world attempt endpoint called e).1.countP _ ≤ _
    rw [hsettle, List.countP_append, hnone _ (fun event h => by
      rcases List.mem_cons.mp h with rfl | h
      · rfl
      · split at h
        · rw [List.mem_singleton.mp h]; rfl
        · nomatch h), Nat.zero_add]
    have hdecided : ∀ failure, (decidedEvent client world attempt failure).isDecision n =
        (attempt == n) := fun _ => rfl
    cases hafter with
    | late => exact Nat.zero_le _
    | stopped =>
      rw [List.countP_singleton, hdecided]
      by_cases hn : n = attempt
      · simp [hn]
      · simp [hn, Ne.symm hn]
    | granted =>
      rw [List.countP_cons, List.countP_singleton, hdecided]
      by_cases hn : n = attempt
      · simp [hn, Event.isDecision]
      · simp [hn, Ne.symm hn, Event.isDecision]
  · refine Nat.le_trans (Nat.le_of_eq (hnone _ fun event h => ?_)) (Nat.zero_le _)
    rcases @mem_settle client world attempt endpoint _ _ _ h with h | ⟨e, failure, he, -⟩
    · exact Event.isSettlement_of_settles h
    · nomatch he

end Turns

section TurnFacts

variable {client : Client} {world : AttemptWorld} {attempted : List ServiceEndpoint}
  {attempt started : Nat}

theorem requestsSent_of_selected {before : List Event} {selected : SelectedEndpoint}
    (h : selectEndpoint client world.toSelectionWorld attempted = (before, .ok selected)) :
    requestsSent (attemptOnce client world attempted attempt started).events =
      if world.sends then 1 else 0 := by
  have hbefore : requestsSent before = 0 := requestsSent_eq_zero fun event hevent => by
    obtain ⟨x, rfl⟩ := mem_selectEndpoint h hevent
    rfl
  have hcons : ∀ events, requestsSent (.selected attempt selected.instance_.endpoint :: events) =
      requestsSent events := fun _ => List.countP_cons_of_neg (by exact Bool.false_ne_true)
  rw [attemptOnce_of_selected h]
  dsimp only
  rw [requestsSent_append, requestsSent_append, hbefore, hcons, requestsSent_ran,
    @requestsSent_eq_zero (Prod.fst _) fun event hevent => (mem_settle_plain hevent).1]
  omega

theorem requestsSent_of_unselected {before : List Event} {e : Error}
    (h : selectEndpoint client world.toSelectionWorld attempted = (before, .error e)) :
    requestsSent (attemptOnce client world attempted attempt started).events = 0 := by
  refine requestsSent_eq_zero fun event hevent => ?_
  unfold attemptOnce at hevent
  rw [h] at hevent
  obtain ⟨x, rfl⟩ := mem_selectEndpoint h hevent
  rfl

/-- A turn hands over one request at most. -/
theorem requestsSent_attemptOnce :
    requestsSent (attemptOnce client world attempted attempt started).events ≤ 1 := by
  rcases hselect : selectEndpoint client world.toSelectionWorld attempted with ⟨before, e | selected⟩
  · rw [requestsSent_of_unselected hselect]
    exact Nat.zero_le 1
  · rw [requestsSent_of_selected hselect]
    split <;> decide

theorem decides_once_attemptOnce (n : Nat) :
    ((attemptOnce client world attempted attempt started).events).countP (Event.isDecision n) ≤
      if n = attempt then 1 else 0 := by
  obtain ⟨before, after, hevents, hbefore, hafter⟩ :=
    @attemptOnce_split client world attempted attempt started
  have hzero : before.countP (Event.isDecision n) = 0 :=
    List.countP_eq_zero.mpr fun event h => by
      obtain ⟨x, rfl⟩ := hbefore event h
      exact Bool.false_ne_true
  rw [hevents, List.countP_append, hzero, Nat.zero_add]
  rcases hafter with rfl | ⟨selected, -, rfl⟩
  · exact Nat.zero_le _
  have hran : ((world.ran attempt started).events).countP (Event.isDecision n) = 0 :=
    List.countP_eq_zero.mpr fun event h => by simp [(mem_ran_plain h).2.1 n]
  show List.countP _ (_ :: _ ++ _) ≤ _
  rw [List.countP_append, List.countP_cons_of_neg (by exact Bool.false_ne_true), hran, Nat.zero_add]
  exact settle_decides_once _ _ n

theorem selectsUntried_turn {worlds : Nat → AttemptWorld} {before rest : List Event}
    {selected : SelectedEndpoint}
    (hselect : selectEndpoint client (worlds attempt).toSelectionWorld attempted =
      (before, .ok selected))
    (hrest : SelectsUntried client worlds (selected.instance_.endpoint :: attempted) rest) :
    SelectsUntried client worlds attempted
      ((attemptOnce client (worlds attempt) attempted attempt started).events ++ rest) := by
  have hcase := attemptOnce_case client (worlds attempt) attempted attempt started
  generalize attemptOnce client (worlds attempt) attempted attempt started = turn at hcase
  cases hcase with
  | unselected h =>
    rw [hselect] at h
    nomatch h
  | @settled before' selected' h =>
    obtain ⟨rfl, hselected⟩ := Prod.mk.inj (hselect.symm.trans h)
    obtain rfl := Except.ok.inj hselected
    rw [List.append_assoc, List.append_assoc, selectsUntried_append fun event hevent => ?_]
    · refine ⟨selectEndpoint_tried hselect, ?_⟩
      refine (selectsUntried_append fun event hevent => (mem_ran_plain hevent).1).mpr ?_
      exact (selectsUntried_append fun event hevent => (mem_settle_plain hevent).2).mpr hrest
    · obtain ⟨x, rfl⟩ := mem_selectEndpoint h hevent
      rfl

theorem selectsUntried_attemptOnce {worlds : Nat → AttemptWorld} :
    SelectsUntried client worlds attempted
      (attemptOnce client (worlds attempt) attempted attempt started).events := by
  obtain ⟨before, after, hevents, hbefore, hafter⟩ :=
    @attemptOnce_split client (worlds attempt) attempted attempt started
  rcases hafter with rfl | ⟨selected, hselect, -⟩
  · rw [hevents, List.append_nil]
    refine selectsUntried_of_not fun event hevent => ?_
    obtain ⟨x, rfl⟩ := hbefore event hevent
    rfl
  · rw [← List.append_nil (attemptOnce ..).events]
    exact selectsUntried_turn hselect trivial

/-- What a turn says of decisions and waits is said after an attempt that failed. -/
theorem mem_attemptOnce_after {event : Event}
    (h : event ∈ (attemptOnce client world attempted attempt started).events)
    (hevent : (∃ n, event.isDecision n = true) ∨ ∃ n delay, event = .waiting n delay) :
    ∃ e failure hint, (world.ran attempt started).result = some (.error e) ∧
      Fails world e failure hint ∧
      let delay := retryDelay client world attempt hint
      delay < world.remaining ∧
        (event = decidedEvent client world attempt failure ∨
          event = .waiting attempt delay ∧
            (retryDecision client world attempt failure).1 = some .retry ∧
            decidedEvent client world attempt failure ∈
              (attemptOnce client world attempted attempt started).events) := by
  have hnot : (∀ n, event.isDecision n = false) ∧ (∀ n delay, event ≠ .waiting n delay) → False := by
    rintro ⟨hdecision, hwaiting⟩
    rcases hevent with ⟨n, hn⟩ | ⟨n, delay, hn⟩
    · rw [hdecision n] at hn
      nomatch hn
    · exact hwaiting n delay hn
  rcases mem_attemptOnce h with ⟨x, rfl⟩ | ⟨before, selected, -, rfl | h | h, hsub⟩
  · exact (hnot ⟨fun _ => rfl, nofun⟩).elim
  · exact (hnot ⟨fun _ => rfl, nofun⟩).elim
  · exact (hnot (mem_ran_plain h).2).elim
  · rcases mem_settle h with hsettled | ⟨e, failure, hresult, rfl, hdelay, h⟩
    · have hsettlement := Event.isSettlement_of_settles hsettled
      refine (hnot ⟨(Event.plain_of_isSettlement hsettlement).2.2, ?_⟩).elim
      rintro n delay rfl
      nomatch hsettlement
    · exact ⟨e, _, _, hresult, ran_fails world attempt started e, hdelay,
        h.imp_right fun h => ⟨h.1, h.2.1, hsub h.2.2⟩⟩

theorem soundDecision_of_mem {n now : Nat} {context : RetryDecisionContext}
    {decision : Option RetryDecision} {before after : BudgetState}
    (h : .decided n context decision now before after ∈
      (attemptOnce client world attempted attempt started).events) :
    n = attempt ∧ SoundDecision client world n context decision now before after := by
  obtain ⟨e, failure, hint, hresult, hfails, hdelay, h | ⟨h, -⟩⟩ :=
    mem_attemptOnce_after h (Or.inl ⟨n, beq_self_eq_true n⟩)
  · obtain ⟨rfl, rfl, rfl, rfl, rfl, rfl⟩ := Event.decided.inj h
    refine ⟨rfl, ⟨started, e, failure, hint, hresult, hfails, rfl, hdelay⟩, fun hretry => ?_,
      fun hnot => ?_, fun hstop => ?_⟩
    · obtain ⟨hgranted, htoken⟩ := decideWithGuards_retry_iff.mp (Prod.ext hretry rfl)
      exact ⟨hgranted, htoken, tryAcquire_true htoken⟩
    · have hstop : (retryDecision client world n failure).1 ≠ some .retry := fun hretry =>
        hnot (decideWithGuards_retry_iff.mp (Prod.ext hretry rfl)).1
      exact ⟨hstop, (decideWithGuards_stop hstop).resolve_right fun h => hnot h.1⟩
    · exact (decideWithGuards_stop hstop).imp_right fun h => h.2.2
  · nomatch h

theorem soundWait_of_mem {n delay : Nat}
    (h : .waiting n delay ∈ (attemptOnce client world attempted attempt started).events) :
    n = attempt ∧ SoundWait world n delay ∧
      ∃ event ∈ (attemptOnce client world attempted attempt started).events, event.grants n := by
  obtain ⟨e, failure, hint, hresult, hfails, hdelay, h | ⟨h, hretry, hdecided⟩⟩ :=
    mem_attemptOnce_after h (Or.inr ⟨n, delay, rfl⟩)
  · nomatch h
  · obtain ⟨rfl, rfl⟩ := Event.waiting.inj h
    refine ⟨rfl, ⟨⟨started, e, failure, hint, hresult, hfails, fun asked hasked => ?_⟩, hdelay⟩, _,
      hdecided, rfl, hretry⟩
    unfold retryDelay
    rw [Option.mem_def] at hasked
    rw [hasked]
    exact Nat.le_max_right _ _

end TurnFacts

/-! ## The loop -/

section Loops

variable {client : Client} {worlds : Nat → AttemptWorld} {attempted : List ServiceEndpoint}
  {attempt started : Nat} {run : LoopRun}

theorem Loop.requestsSent_le (h : Loop client worlds attempted attempt started run) :
    requestsSent run.events + attempt ≤ hardAttemptLimit client.retry.maxAttempts + 1 := by
  induction h with
  | @last attempted attempt started end_ hattempt hend =>
    have hbound := hattempt.bounds.2.1
    have hturn := @requestsSent_attemptOnce client (worlds attempt) attempted attempt started
    show requestsSent (attemptOnce ..).events + attempt ≤ _
    omega
  | @again attempted attempt started endpoint rest hattempt hagain hrest ih =>
    have hturn := @requestsSent_attemptOnce client (worlds attempt) attempted attempt started
    show requestsSent (_ ++ _) + attempt ≤ _
    rw [requestsSent_append]
    omega

theorem Loop.requestsSent_le_one (h : Loop client worlds attempted attempt started run)
    (hmethod : client.method.allowsRetries = false) : requestsSent run.events ≤ 1 := by
  cases h with
  | last => exact requestsSent_attemptOnce
  | again hattempt hagain hrest =>
    obtain ⟨e, hgoes⟩ := goesOn_of_again hagain
    have hallows : client.method.allowsRetries = true := hgoes.granted.method
    rw [hmethod] at hallows
    nomatch hallows

theorem Loop.decisions (h : Loop client worlds attempted attempt started run) {n now : Nat}
    {context : RetryDecisionContext} {decision : Option RetryDecision}
    {before after : BudgetState}
    (hmem : .decided n context decision now before after ∈ run.events) :
    SoundDecision client (worlds n) n context decision now before after := by
  induction h with
  | last =>
    obtain ⟨rfl, hsound⟩ := soundDecision_of_mem hmem
    exact hsound
  | again hattempt hagain hrest ih =>
    rcases List.mem_append.mp hmem with hmem | hmem
    · obtain ⟨rfl, hsound⟩ := soundDecision_of_mem hmem
      exact hsound
    · exact ih hmem

theorem Loop.waits (h : Loop client worlds attempted attempt started run) {n delay : Nat}
    (hmem : .waiting n delay ∈ run.events) :
    SoundWait (worlds n) n delay ∧ ∃ event ∈ run.events, event.grants n := by
  induction h with
  | last =>
    obtain ⟨rfl, hsound, hgrants⟩ := soundWait_of_mem hmem
    exact ⟨hsound, hgrants⟩
  | again hattempt hagain hrest ih =>
    rcases List.mem_append.mp hmem with hmem | hmem
    · obtain ⟨rfl, hsound, event, hevent, hgrants⟩ := soundWait_of_mem hmem
      exact ⟨hsound, event, List.mem_append_left _ hevent, hgrants⟩
    · obtain ⟨hsound, event, hevent, hgrants⟩ := ih hmem
      exact ⟨hsound, event, List.mem_append_right _ hevent, hgrants⟩

theorem selected_of_mem {client : Client} {world : AttemptWorld} {n : Nat}
    {endpoint : ServiceEndpoint}
    (h : .selected n endpoint ∈ (attemptOnce client world attempted attempt started).events) :
    n = attempt := by
  rcases mem_attemptOnce h with ⟨x, h⟩ | ⟨before, selected, -, h | h | h, -⟩
  · nomatch h
  · exact (Event.selected.inj h).1
  · nomatch (mem_ran_plain h).1
  · nomatch (mem_settle_plain h).2

theorem Loop.further (h : Loop client worlds attempted attempt started run) {n : Nat}
    {endpoint : ServiceEndpoint} (hmem : .selected n endpoint ∈ run.events) :
    n = attempt ∨ ∃ event ∈ run.events, event.grants (n - 1) := by
  induction h with
  | last => exact Or.inl (selected_of_mem hmem)
  | again hattempt hagain hrest ih =>
    obtain ⟨e, hgoes⟩ := goesOn_of_again hagain
    rcases List.mem_append.mp hmem with hmem | hmem
    · exact Or.inl (selected_of_mem hmem)
    · rcases ih hmem with rfl | ⟨event, hevent, hgrants⟩
      · exact Or.inr ⟨_, List.mem_append_left _ hgoes.decided, rfl, hgoes.decision⟩
      · exact Or.inr ⟨event, List.mem_append_right _ hevent, hgrants⟩

theorem Loop.decides_once (h : Loop client worlds attempted attempt started run) (n : Nat) :
    run.events.countP (Event.isDecision n) ≤ if attempt ≤ n then 1 else 0 := by
  induction h with
  | @last attempted attempt started end_ hattempt hend =>
    refine Nat.le_trans (decides_once_attemptOnce n) ?_
    split <;> split <;> omega
  | @again attempted attempt started endpoint rest hattempt hagain hrest ih =>
    have hturn := @decides_once_attemptOnce client (worlds attempt) attempted attempt started n
    show List.countP _ (_ ++ _) ≤ _
    rw [List.countP_append]
    split at hturn <;> split at ih <;> split <;> omega

theorem Loop.selectsUntried (h : Loop client worlds attempted attempt started run) :
    SelectsUntried client worlds attempted run.events := by
  induction h with
  | last => exact selectsUntried_attemptOnce
  | again hattempt hagain hrest ih =>
    obtain ⟨e, hgoes⟩ := goesOn_of_again hagain
    obtain ⟨before, selected, rfl, hselect⟩ := hgoes.selected
    exact selectsUntried_turn hselect ih

end Loops

/-! ## The invocation -/

section Bounds

variable {client : Client} {worlds : Nat → AttemptWorld} {events : List Event}

theorem retryBounds_nil : RetryBounds client worlds [] where
  attempts := Nat.zero_le _
  single _ := Nat.zero_le _
  decisions := nofun
  further := nofun
  once _ := Nat.zero_le _
  waits := nofun
  selections := trivial

theorem Loop.retryBounds {run : LoopRun} (h : Loop client worlds [] 1 0 run) :
    RetryBounds client worlds run.events where
  attempts := by
    have hle := h.requestsSent_le
    have hlimit := hardAttemptLimit_le_configured client.retry.maxAttempts_valid.1
    omega
  single := h.requestsSent_le_one
  decisions _ _ _ _ _ _ hmem := h.decisions hmem
  further _ _ hmem := h.further hmem
  once n := Nat.le_trans (h.decides_once n) (by split <;> decide)
  waits _ _ hmem := h.waits hmem
  selections := h.selectsUntried

/-- Settlements do not matter to the bounds. -/
theorem RetryBounds.append (h : RetryBounds client worlds events) {after : List Event}
    (hafter : ∀ event ∈ after, event.isSettlement = true) :
    RetryBounds client worlds (events ++ after) := by
  have hplain := fun event h => Event.plain_of_isSettlement (hafter event h)
  have hsent : requestsSent (events ++ after) = requestsSent events := by
    rw [requestsSent_append, requestsSent_eq_zero fun event h => (hplain event h).1, Nat.add_zero]
  have hmem : ∀ {event : Event}, event ∈ events ++ after → event.isSettlement = false →
      event ∈ events := by
    intro event h hsettlement
    refine (List.mem_append.mp h).resolve_right fun h => ?_
    rw [hafter event h] at hsettlement
    nomatch hsettlement
  refine ⟨hsent ▸ h.attempts, fun hmethod => hsent ▸ h.single hmethod, ?_, ?_, ?_, ?_, ?_⟩
  · intro n context decision now b a hdecided
    exact h.decisions n context decision now b a (hmem hdecided rfl)
  · intro n endpoint hselected
    refine (h.further n endpoint (hmem hselected rfl)).imp_right ?_
    rintro ⟨event, hevent, hgrants⟩
    exact ⟨event, List.mem_append_left _ hevent, hgrants⟩
  · intro n
    have hzero : after.countP (Event.isDecision n) = 0 :=
      List.countP_eq_zero.mpr fun event h => by simp [(hplain event h).2.2 n]
    rw [List.countP_append, hzero]
    exact h.once n
  · intro n delay hwaiting
    obtain ⟨hsound, event, hevent, hgrants⟩ := h.waits n delay (hmem hwaiting rfl)
    exact ⟨hsound, event, List.mem_append_left _ hevent, hgrants⟩
  · exact selectsUntried_append_right h.selections fun event hevent => (hplain event hevent).2.1

end Bounds

/-- **The bounds of the retry loop hold of every invocation.** -/
theorem invoke_retryBounds (client : Client) (world : World) :
    RetryBounds client world.attempts (invoke client world).events := by
  obtain ⟨before, after, hevents, hbefore, hafter⟩ := invoke_events client world
  rw [hevents]
  refine RetryBounds.append ?_ hafter
  rcases hbefore with rfl | rfl
  · exact retryBounds_nil
  · exact (executeAttempts_loop client world.attempts).retryBounds

end Fusen.Invocation
