import Fusen.Invocation.RetryBounds

/-!
# The accounts of an invocation

The number of attempts that an invocation reports should be the number of the requests it
handed to the transport, and each of these should be finished once in the metrics
(`Accounted`).  The number reported is that of the last attempt that was sent, and an attempt
is finished where it failed, or where its response is finished or dropped: so the accounts
agree if no attempt is skipped and none ends both ways (`accounted_of_countable`).  An
interceptor that turns an answer into an error finishes the attempt twice
(`faultedAnswer_miscounted`).
-/

namespace Fusen.Invocation

open Lib Contract Resilience

/-! ## Counting -/

def Event.isFinish (n : Nat) : Event → Bool
  | .attemptFinished m _ => m == n
  | _ => false

def Event.sendsAs (n : Nat) : Event → Bool
  | .sent m => m == n
  | _ => false

def finishes (n : Nat) (events : List Event) : Nat := events.countP (Event.isFinish n)

def sendsOf (n : Nat) (events : List Event) : Nat := events.countP (Event.sendsAs n)

@[simp] theorem finishes_append (n : Nat) (a b : List Event) :
    finishes n (a ++ b) = finishes n a + finishes n b := List.countP_append

@[simp] theorem sendsOf_append (n : Nat) (a b : List Event) :
    sendsOf n (a ++ b) = sendsOf n a + sendsOf n b := List.countP_append

/-- The accounts agree. -/
structure Accounted (invoked : Invoked) : Prop where
  attempts : ∀ result, invoked.result = some result →
    result.attempts = requestsSent invoked.events
  once : ∀ n, sendsOf n invoked.events ≤ 1
  finished : ∀ n, finishes n invoked.events = sendsOf n invoked.events

/-! ## The condition -/

/-- The answer came and was read. -/
def CallFate.decodes : CallFate → Bool
  | .answered (.decoded _) => true
  | _ => false

/-- The attempt is neither dropped nor cut off by a cancellation of the runtime. -/
structure Undisturbed (world : AttemptWorld) (n : Nat) : Prop where
  fate : ∀ handed, world.fate ≠ .cancelled handed
  answers : ∀ started, (world.ran n started).result ≠ none
  sleep : world.sleep = .elapsed

/-- The interceptor answers with a response of its own, or with an error, only if no clone is
kept of the response that it drops for it. -/
def Interceptor.PassesKept (i : Interceptor) : Prop :=
  ∀ response, i.keeps (some (.ok response)) = true →
    i.reply (some (.ok response)) = some .same ∨
      ∃ body, i.reply (some (.ok response)) = some (.edited body)

/-- An attempt that ends one way: one that was sent, and whose terminal saw no failure, ends in a
response if its answer was read and in an error if not; one that was not sent is not tried
again; and a response of which a clone is kept is passed on.  An error of a router or the load
balancer brings no count of its own. -/
structure Countable (world : AttemptWorld) (n : Nat) : Prop where
  read : world.sends = true → world.fate.decodes = true →
    ∀ started e, (world.ran n started).result ≠ some (.error e)
  unread : world.sends = true → world.fate.decodes = false → world.observed = none →
    ∀ started response, (world.ran n started).result ≠ some (.ok response)
  unsent : world.sends = false → ∀ started e, (world.ran n started).result = some (.error e) →
    (classifyError e).isRetryable = false
  kept : ∀ i ∈ world.interceptors, i.PassesKept
  routers : ∀ router ∈ world.routers, ∀ routed e, router routed = some (.error e) → e.attempts = 0
  loadBalancer : ∀ eligible e, world.loadBalancer eligible = some (.error e) → e.attempts = 0

/-- What the call interceptors and the encoder make brings no count of its own, and a response
of which a clone is kept is passed on. -/
structure CountableCall (world : World) : Prop where
  kept : ∀ i ∈ world.callInterceptors, i.PassesKept
  errors : ∀ i ∈ world.callInterceptors, ∀ result e, i.reply result = some (.error e) →
    e.attempts = 0
  foreign : ∀ i ∈ world.callInterceptors, ∀ result r, i.reply result = some (.foreign r) →
    r.attempts = 0
  encode : ∀ e, world.encode = .error e → e.attempts = 0

/-! ## Completions -/

/-- Whether a result holds the completion of attempt `n`. -/
def pending (n : Nat) : Option InterceptorResult → Nat
  | some (.ok response) => if response.attemptCompletion = some n then 1 else 0
  | _ => 0

theorem finishes_finishAttempt (n : Nat) (response : Response) (failure : Option FailureClass) :
    finishes n (response.finishAttempt failure) = pending n (some (.ok response)) := by
  obtain ⟨attempts, wireOrigin, tracks, permit, completion, body⟩ := response
  cases completion with
  | none => rfl
  | some m =>
    by_cases h : m = n
    · simp [finishes, Response.finishAttempt, pending, h, Event.isFinish]
    · simp [finishes, Response.finishAttempt, pending, h, Event.isFinish]

theorem finishes_drop (n : Nat) (response : Response) :
    finishes n response.drop = pending n (some (.ok response)) := by
  unfold Response.drop
  rw [finishes_append, finishes_finishAttempt]
  split <;> rfl

/-- A reply finishes the completion it does not pass on. -/
theorem finishes_apply (n : Nat) {i : Interceptor} (hi : i.PassesKept)
    (result : Option InterceptorResult) :
    finishes n (Reply.apply (i.keeps result) result (i.reply result)).1 +
        pending n (Reply.apply (i.keeps result) result (i.reply result)).2 = pending n result := by
  rcases result with - | e | response
  · rcases i.reply none with - | - | body | r | e <;> cases i.keeps none <;> rfl
  · rcases i.reply (some (.error e)) with - | - | body | r | e' <;>
      cases i.keeps (some (.error e)) <;> rfl
  · cases hkept : i.keeps (some (.ok response)) with
    | true =>
      rcases hi response hkept with hreply | ⟨body, hreply⟩ <;> rw [hreply] <;> exact Nat.zero_add _
    | false =>
      have hdrop := finishes_drop n response
      rcases i.reply (some (.ok response)) with - | - | body | r | e
      · exact hdrop
      · exact Nat.zero_add _
      · exact Nat.zero_add _
      · exact hdrop
      · exact hdrop

theorem finishes_run {σ : Type} {terminal : Ran σ} {idle : σ} {chain : List Interceptor}
    (hchain : ∀ i ∈ chain, i.PassesKept) (n : Nat) :
    finishes n (Next.run terminal idle chain).events + pending n (Next.run terminal idle chain).result =
      if reachesTerminal chain then finishes n terminal.events + pending n terminal.result else 0 := by
  induction chain with
  | nil => rfl
  | cons i chain ih =>
    have ih := ih fun j hj => hchain j (List.mem_cons_of_mem i hj)
    rw [Next.run_cons]
    dsimp only
    rw [finishes_append, Nat.add_assoc, finishes_apply n (hchain i (List.mem_cons_self ..))]
    unfold reachesTerminal at ih ⊢
    cases hnext : i.callsNext with
    | false => simp [hnext, finishes, pending]
    | true => simpa [hnext] using ih

/-! ## One turn -/

section Turns

variable {client : Client} {world : AttemptWorld} {attempted : List ServiceEndpoint}
  {attempt started : Nat}

theorem plain_counts {events : List Event} (n : Nat)
    (h : ∀ event ∈ events, event.isFinish n = false ∧ event.sendsAs n = false) :
    finishes n events = 0 ∧ sendsOf n events = 0 :=
  ⟨List.countP_eq_zero.mpr fun event hevent => by simp [(h event hevent).1],
    List.countP_eq_zero.mpr fun event hevent => by simp [(h event hevent).2]⟩

theorem sendsOf_settlements {events : List Event} (n : Nat)
    (h : ∀ event ∈ events, event.isSettlement = true) : sendsOf n events = 0 := by
  refine List.countP_eq_zero.mpr fun event hevent => ?_
  have hsettlement := h event hevent
  cases event <;> first | exact Bool.false_ne_true | nomatch hsettlement

theorem sendsOf_ran (n : Nat) :
    sendsOf n (world.ran attempt started).events =
      if world.sends = true ∧ n = attempt then 1 else 0 := by
  obtain ⟨drops, hevents, hdrops⟩ := world.ran_events attempt started
  have hzero := sendsOf_settlements n fun event h => Event.isSettlement_of_isDrop (hdrops event h)
  rw [hevents, sendsOf_append, sendsOf_append, hzero]
  by_cases hn : n = attempt
  · cases world.observed <;> cases world.sends <;> simp [sendsOf, Event.sendsAs, hn]
  · have hne : attempt ≠ n := Ne.symm hn
    cases world.observed <;> cases world.sends <;> simp [sendsOf, Event.sendsAs, hn, hne]

/-- The attempt's response holds the completion if the answer was read. -/
theorem finishes_ran (hkept : ∀ i ∈ world.interceptors, i.PassesKept) (n : Nat) :
    finishes n (world.ran attempt started).events + pending n (world.ran attempt started).result =
      if world.sends = true ∧ world.fate.decodes = true ∧ n = attempt then 1 else 0 := by
  unfold AttemptWorld.ran
  rw [finishes_run hkept]
  have hfinishes : finishes n (AttemptTerminal.call attempt started world.fate).events = 0 := by
    rw [AttemptTerminal.call_events]
    cases world.fate.observed <;> cases world.fate.sends <;> rfl
  have hsends : world.sends = (reachesTerminal world.interceptors && world.fate.sends) := rfl
  rw [hfinishes, Nat.zero_add, hsends]
  cases reachesTerminal world.interceptors with
  | false => simp
  | true =>
    rw [if_pos rfl]
    rcases world.fate with - | e | handed | - | kind | decode | -
    case answered =>
      rcases decode with - | e | body | -
      case decoded =>
        show (if some attempt = some n then 1 else 0) = _
        simp [CallFate.sends, CallFate.decodes, eq_comm]
      all_goals simp [AttemptTerminal.call, AttemptTerminal.decode, AttemptTerminal.observe, pending,
        CallFate.decodes]
    all_goals simp [AttemptTerminal.call, AttemptTerminal.observe, pending, CallFate.decodes]

/-- The completion a turn hands on. -/
def TurnOutcome.pending (n : Nat) : TurnOutcome → Nat
  | .succeeded s => Invocation.pending n (some (.ok s.response))
  | _ => 0

theorem finishes_settleFailure {endpoint : ServiceEndpoint} {called : Called} {e : Error} (n : Nat) :
    finishes n (settleFailure client world attempt endpoint called e).1 =
      (if attempt ≤ called.started ∧ n = attempt then 1 else 0) ∧
    (settleFailure client world attempt endpoint called e).2.pending n = 0 := by
  obtain ⟨after, hafter, hsettle⟩ := settleFailure_events client world attempt endpoint called e
  have hzero : finishes n after.1 = 0 ∧ after.2.pending n = 0 := by
    cases hafter with
    | late => exact ⟨rfl, rfl⟩
    | stopped => exact ⟨rfl, rfl⟩
    | granted hdelay hdecision houtcome =>
      refine ⟨rfl, ?_⟩
      rcases houtcome with rfl | ⟨rfl, -⟩ | rfl <;> rfl
  rw [hsettle, finishes_append, hzero.1]
  refine ⟨?_, hzero.2⟩
  by_cases hstarted : attempt ≤ called.started
  · by_cases hn : n = attempt
    · simp [finishes, Event.isFinish, hstarted, hn]
    · simp [finishes, Event.isFinish, hstarted, hn, Ne.symm hn]
  · simp [finishes, Event.isFinish, hstarted]

theorem finishes_settleSuccess {called : Called} {response : Response} (n : Nat) :
    finishes n (settleSuccess attempt called response).1 =
      (if called.observation.failure.isSome = true ∧ n = attempt then 1 else 0) ∧
    pending n (some (.ok (settleSuccess attempt called response).2.response)) =
      pending n (some (.ok response)) := by
  unfold settleSuccess
  dsimp only
  split
  · rename_i f hf
    rw [hf]
    refine ⟨?_, rfl⟩
    by_cases hn : n = attempt
    · simp [finishes, Event.isFinish, hn]
    · simp [finishes, Event.isFinish, hn, Ne.symm hn]
  · rename_i hf
    rw [hf]
    split <;> exact ⟨by simp [finishes, Event.isFinish], rfl⟩

theorem starts_eq_sends (h : Undisturbed world attempt) :
    (reachesTerminal world.interceptors && world.fate.starts) = world.sends := by
  unfold AttemptWorld.sends
  rcases hfate : world.fate with - | e | handed | - | kind | decode | -
  case cancelled => exact absurd hfate (h.fate handed)
  all_goals rfl

theorem not_observed_of_decodes (h : world.fate.decodes = true) : world.observed = none := by
  unfold AttemptWorld.observed
  rcases hfate : world.fate with - | e | handed | - | kind | decode | -
  case answered =>
    rcases decode with - | e | body | -
    case decoded => split <;> rfl
    all_goals
      rw [hfate] at h
      nomatch h
  all_goals
    rw [hfate] at h
    nomatch h

/-- The counts of a turn that has its endpoint. -/
theorem counts_of_selected {before : List Event} {selected : SelectedEndpoint}
    (h : selectEndpoint client world.toSelectionWorld attempted = (before, .ok selected)) (n : Nat) :
    finishes n (attemptOnce client world attempted attempt started).events =
        finishes n (world.ran attempt started).events +
        finishes n (settle client world attempt selected.instance_.endpoint
          (world.ran attempt started).side (world.ran attempt started).result).1 ∧
      sendsOf n (attemptOnce client world attempted attempt started).events =
        if world.sends = true ∧ n = attempt then 1 else 0 := by
  obtain ⟨hfinishes, hsends⟩ := plain_counts n fun event hevent => by
    obtain ⟨x, rfl⟩ := mem_selectEndpoint h hevent
    exact ⟨rfl, rfl⟩
  have hcons : ∀ events, finishes n (.selected attempt selected.instance_.endpoint :: events) =
      finishes n events ∧ sendsOf n (.selected attempt selected.instance_.endpoint :: events) =
      sendsOf n events := fun _ =>
    ⟨List.countP_cons_of_neg (by exact Bool.false_ne_true),
      List.countP_cons_of_neg (by exact Bool.false_ne_true)⟩
  have hsettle : sendsOf n (settle client world attempt selected.instance_.endpoint
      (world.ran attempt started).side (world.ran attempt started).result).1 = 0 := by
    refine List.countP_eq_zero.mpr fun event hevent => ?_
    have hplain := (mem_settle_plain hevent).1
    cases event <;> first | exact Bool.false_ne_true | nomatch hplain
  rw [attemptOnce_of_selected h]
  dsimp only
  rw [finishes_append, finishes_append, sendsOf_append, sendsOf_append, hfinishes, hsends,
    (hcons _).1, (hcons _).2, hsettle, sendsOf_ran]
  exact ⟨by omega, by omega⟩

/-- **A turn finishes what it sends**, or hands the completion on. -/
theorem finishes_turn (hwhole : Undisturbed world attempt) (hcount : Countable world attempt)
    (hstarted : started < attempt) (n : Nat) :
    finishes n (attemptOnce client world attempted attempt started).events +
        (attemptOnce client world attempted attempt started).outcome.pending n =
      sendsOf n (attemptOnce client world attempted attempt started).events ∧
    sendsOf n (attemptOnce client world attempted attempt started).events ≤
      if n = attempt then 1 else 0 := by
  rcases hselect : selectEndpoint client world.toSelectionWorld attempted with ⟨before, e | selected⟩
  · obtain ⟨hfinishes, hsends⟩ := plain_counts n fun event hevent => by
      obtain ⟨x, rfl⟩ := mem_selectEndpoint hselect hevent
      exact ⟨rfl, rfl⟩
    unfold attemptOnce
    rw [hselect]
    dsimp only
    rw [hfinishes, hsends]
    exact ⟨rfl, Nat.zero_le _⟩
  obtain ⟨hfinishes, hsends⟩ := @counts_of_selected client world attempted attempt started before
    selected hselect n
  have hran := @finishes_ran world attempt started hcount.kept n
  have hside := world.ran_started attempt started
  rw [starts_eq_sends hwhole] at hside
  rw [hfinishes, hsends]
  refine ⟨?_, by split <;> split <;> omega⟩
  rw [attemptOnce_of_selected hselect]
  rcases hresult : (world.ran attempt started).result with - | e | response
  · exact absurd hresult (hwhole.answers started)
  · obtain ⟨hsettle, hpending⟩ := @finishes_settleFailure client world attempt
      selected.instance_.endpoint (world.ran attempt started).side e n
    show _ + finishes n (settleFailure ..).1 + (settleFailure ..).2.pending n = _
    rw [hsettle, hpending, hside]
    have hread : ¬ (world.sends = true ∧ world.fate.decodes = true ∧ n = attempt) :=
      fun h => hcount.read h.1 h.2.1 started e hresult
    rw [if_neg hread] at hran
    have hzero : finishes n (world.ran attempt started).events = 0 := by omega
    rw [hzero]
    cases world.sends with
    | true => simp
    | false => simp [Nat.not_le.mpr hstarted]
  · obtain ⟨hsettle, hpending⟩ := @finishes_settleSuccess attempt (world.ran attempt started).side
      response n
    show _ + finishes n (settleSuccess ..).1 + pending n (some (.ok (settleSuccess ..).2.response)) = _
    rw [hsettle, hpending, world.ran_failure]
    rw [hresult] at hran
    have hone : world.sends = true →
        world.fate.decodes = true ∧ world.observed = none ∨
          world.fate.decodes = false ∧ world.observed.isSome = true := by
      intro hsent
      cases hdecodes : world.fate.decodes with
      | true => exact Or.inl ⟨rfl, not_observed_of_decodes hdecodes⟩
      | false =>
        refine Or.inr ⟨rfl, Option.isSome_iff_ne_none.mpr fun hnone => ?_⟩
        exact hcount.unread hsent hdecodes hnone started response hresult
    have hobserved : world.observed.isSome = true → world.sends = true := by
      intro h
      obtain ⟨f, hf⟩ := Option.isSome_iff_exists.mp h
      exact AttemptWorld.sends_of_observed hf
    cases hsent : world.sends with
    | false =>
      have hnone : world.observed.isSome = false := by
        cases h : world.observed.isSome with
        | false => rfl
        | true =>
          rw [hobserved h] at hsent
          nomatch hsent
      rw [hsent] at hran
      simp only [Bool.false_eq_true, false_and, if_false] at hran
      simp only [hnone, Bool.false_eq_true, false_and, if_false]
      omega
    | true =>
      rw [hsent] at hran
      rcases hone hsent with ⟨hdecodes, hnone⟩ | ⟨hdecodes, hsome⟩
      · rw [hdecodes] at hran
        rw [hnone]
        simp only [true_and] at hran
        simp only [Option.isSome_none, Bool.false_eq_true, false_and, if_false, true_and]
        omega
      · rw [hdecodes] at hran
        rw [hsome]
        simp only [Bool.false_eq_true, false_and, and_false, if_false] at hran
        simp only [true_and]
        omega

/-- The counter follows the requests. -/
theorem started_turn (hwhole : Undisturbed world attempt) (hstarted : started + 1 = attempt) :
    (attemptOnce client world attempted attempt started).started =
      started + requestsSent (attemptOnce client world attempted attempt started).events := by
  rcases hselect : selectEndpoint client world.toSelectionWorld attempted with ⟨before, e | selected⟩
  · rw [requestsSent_of_unselected hselect]
    unfold attemptOnce
    rw [hselect]
    rfl
  · rw [requestsSent_of_selected hselect, attemptOnce_of_selected hselect]
    show (world.ran attempt started).side.started = _
    rw [world.ran_started, starts_eq_sends hwhole]
    split <;> omega

/-- An attempt that is tried again was sent. -/
theorem sends_of_again (hcount : Countable world attempt) {endpoint : ServiceEndpoint}
    (h : (attemptOnce client world attempted attempt started).outcome = .again endpoint) :
    requestsSent (attemptOnce client world attempted attempt started).events = 1 := by
  obtain ⟨e, hgoes⟩ := goesOn_of_again h
  obtain ⟨before, selected, -, hselect⟩ := hgoes.selected
  rw [requestsSent_of_selected hselect]
  have hretryable : (attemptFailure (world.ran attempt started).side.observation e).isRetryable =
      true := hgoes.granted.failure
  unfold attemptFailure at hretryable
  rw [world.ran_failure] at hretryable
  cases hsends : world.sends with
  | true => rfl
  | false =>
    cases hobserved : world.observed with
    | some f =>
      rw [AttemptWorld.sends_of_observed hobserved] at hsends
      nomatch hsends
    | none =>
      rw [hobserved] at hretryable
      exact absurd ((hcount.unsent hsends started e hgoes.result).symm.trans hretryable)
        Bool.false_ne_true

/-- How a turn that is the last one ends. -/
structure Ended (outcome : TurnOutcome) (started : Nat) : Prop where
  whole : outcome ≠ .dropped
  failed : ∀ c, outcome = .failed c → c.error.attempts ≤ started
  succeeded : ∀ s, outcome = .succeeded s → s.response.attempts = started

theorem ended_turn (hwhole : Undisturbed world attempt) (hcount : Countable world attempt) :
    Ended (attemptOnce client world attempted attempt started).outcome
      (attemptOnce client world attempted attempt started).started := by
  rcases hselect : selectEndpoint client world.toSelectionWorld attempted with ⟨before, e | selected⟩
  · have hzero : e.attempts = 0 := by
      refine @selectEndpoint_error (fun e => e.attempts = 0) (fun e he => ?_) client
        world.toSelectionWorld hcount.routers hcount.loadBalancer attempted before e hselect
      simp only [selectionErrors, List.mem_cons, List.not_mem_nil, or_false] at he
      rcases he with rfl | rfl | rfl | rfl | rfl | rfl | rfl <;> rfl
    unfold attemptOnce
    rw [hselect]
    show Ended (.failed (.classify e)) started
    refine ⟨TurnOutcome.noConfusion, fun c hc => ?_, fun s hs => TurnOutcome.noConfusion hs⟩
    obtain rfl := TurnOutcome.failed.inj hc
    exact hzero ▸ Nat.zero_le started
  rw [attemptOnce_of_selected hselect]
  rcases hresult : (world.ran attempt started).result with - | e | response
  · exact absurd hresult (hwhole.answers started)
  · obtain ⟨after, hafter, hsettle⟩ := settleFailure_events client world attempt
      selected.instance_.endpoint (world.ran attempt started).side e
    show Ended (settleFailure client world attempt selected.instance_.endpoint
      (world.ran attempt started).side e).2 (world.ran attempt started).side.started
    rw [hsettle]
    refine ⟨?_, ?_, ?_⟩
    · intro hdropped
      cases hafter with
      | late => cases hdropped
      | stopped => cases hdropped
      | granted hdelay hdecision houtcome =>
        rcases houtcome with rfl | ⟨rfl, hsleep⟩ | rfl
        · cases hdropped
        · cases hwhole.sleep.symm.trans hsleep
        · cases hdropped
    · intro c hc
      cases hafter with
      | late =>
        cases hc
        exact le_refl _
      | @stopped hdelay hdecision e' he =>
        cases hc
        rcases he with rfl | rfl <;> exact le_refl _
      | granted hdelay hdecision houtcome =>
        rcases houtcome with rfl | ⟨rfl, -⟩ | rfl
        · cases hc
        · cases hc
        · cases hc
          exact le_refl _
    · intro s hs
      cases hafter with
      | late => cases hs
      | stopped => cases hs
      | granted hdelay hdecision houtcome => rcases houtcome with rfl | ⟨rfl, -⟩ | rfl <;> cases hs
  · show Ended (.succeeded (settleSuccess attempt (world.ran attempt started).side response).2) _
    refine ⟨TurnOutcome.noConfusion, fun c hc => TurnOutcome.noConfusion hc, fun s hs => ?_⟩
    obtain rfl := TurnOutcome.succeeded.inj hs
    unfold settleSuccess
    dsimp only
    split
    · rfl
    · split <;> rfl

end Turns

/-! ## The loop -/

def LoopEnd.pending (n : Nat) : LoopEnd → Nat
  | .succeeded s => Invocation.pending n (some (.ok s.response))
  | _ => 0

/-- The accounts of the attempts from one on. -/
structure LoopAccount (run : LoopRun) (attempt started : Nat) : Prop where
  finished : ∀ n, finishes n run.events + run.end_.pending n = sendsOf n run.events
  once : ∀ n, sendsOf n run.events ≤ if attempt ≤ n then 1 else 0
  started : run.started = started + requestsSent run.events
  whole : run.end_ ≠ .dropped ∧ run.end_ ≠ .outOfFuel
  failed : ∀ c, run.end_ = .failed c → c.error.attempts ≤ run.started
  succeeded : ∀ s, run.end_ = .succeeded s → s.response.attempts = run.started

theorem Loop.account {client : Client} {worlds : Nat → AttemptWorld}
    {attempted : List ServiceEndpoint} {attempt started : Nat} {run : LoopRun}
    (h : Loop client worlds attempted attempt started run)
    (hwhole : ∀ n, Undisturbed (worlds n) n) (hcount : ∀ n, Countable (worlds n) n)
    (hstarted : started + 1 = attempt) : LoopAccount run attempt started := by
  induction h with
  | @last attempted attempt started end_ hattempt hend =>
    have hfinished := fun n => @finishes_turn client (worlds attempt) attempted attempt started
      (hwhole attempt) (hcount attempt) (by omega) n
    have hturn := @started_turn client (worlds attempt) attempted attempt started (hwhole attempt)
      hstarted
    have hended := @ended_turn client (worlds attempt) attempted attempt started (hwhole attempt)
      (hcount attempt)
    have honce : ∀ n, sendsOf n (attemptOnce client (worlds attempt) attempted attempt started).events ≤
        if attempt ≤ n then 1 else 0 := by
      intro n
      have hle := (hfinished n).2
      split at hle <;> split <;> omega
    cases hout : (attemptOnce client (worlds attempt) attempted attempt started).outcome with
    | succeeded s =>
      rw [hout] at hend
      obtain rfl := Option.some.inj hend
      rw [hout] at hfinished hended
      exact ⟨fun n => (hfinished n).1, honce, hturn,
        ⟨LoopEnd.noConfusion, LoopEnd.noConfusion⟩, fun c hc => LoopEnd.noConfusion hc,
        fun s' hs => LoopEnd.succeeded.inj hs ▸ hended.succeeded s rfl⟩
    | failed c =>
      rw [hout] at hend
      obtain rfl := Option.some.inj hend
      rw [hout] at hfinished hended
      exact ⟨fun n => (hfinished n).1, honce, hturn,
        ⟨LoopEnd.noConfusion, LoopEnd.noConfusion⟩,
        fun c' hc => LoopEnd.failed.inj hc ▸ hended.failed c rfl, fun s hs => LoopEnd.noConfusion hs⟩
    | dropped => exact absurd hout hended.whole
    | again endpoint =>
      rw [hout] at hend
      nomatch hend
  | @again attempted attempt started endpoint rest hattempt hagain hrest ih =>
    have hfinished := fun n => @finishes_turn client (worlds attempt) attempted attempt started
      (hwhole attempt) (hcount attempt) (by omega) n
    have hturn := @started_turn client (worlds attempt) attempted attempt started (hwhole attempt)
      hstarted
    have hsent := @sends_of_again client (worlds attempt) attempted attempt started (hcount attempt)
      endpoint hagain
    rw [hagain] at hfinished
    have hrest := ih (by omega)
    refine ⟨fun n => ?_, fun n => ?_, ?_, hrest.whole, hrest.failed, hrest.succeeded⟩
    · have h1 := (hfinished n).1
      have h2 := hrest.finished n
      show finishes n (_ ++ _) + rest.end_.pending n = sendsOf n (_ ++ _)
      rw [finishes_append, sendsOf_append]
      have hzero : (TurnOutcome.again endpoint).pending n = 0 := rfl
      omega
    · have h1 := (hfinished n).2
      have h2 := hrest.once n
      show sendsOf n (_ ++ _) ≤ _
      rw [sendsOf_append]
      split at h1 <;> split at h2 <;> split <;> omega
    · have h1 := hrest.started
      show rest.started = started + requestsSent (_ ++ _)
      rw [requestsSent_append]
      omega

/-! ## The call -/

/-- The accounts when the call interceptors get the result. -/
structure CallAccount (ran : Ran TerminalSide) : Prop where
  finished : ∀ n, finishes n ran.events + pending n ran.result = sendsOf n ran.events
  once : ∀ n, sendsOf n ran.events ≤ 1
  started : ran.side.started = requestsSent ran.events
  error : ∀ e, ran.result = some (.error e) → e.attempts ≤ ran.side.started
  response : ∀ r, ran.result = some (.ok r) → r.attempts ≤ ran.side.started

theorem serviceBreaker_counts (n : Nat) (events : List Event) (outcome : PermitOutcome) :
    finishes n (events ++ [.serviceBreaker outcome]) = finishes n events ∧
      sendsOf n (events ++ [.serviceBreaker outcome]) = sendsOf n events ∧
      requestsSent (events ++ [.serviceBreaker outcome]) = requestsSent events :=
  ⟨finishes_append n _ _, sendsOf_append n _ _, requestsSent_append _ _⟩

theorem finish_account {run : LoopRun} (h : LoopAccount run 1 0) :
    CallAccount (InvocationTerminal.finish run run.end_) := by
  have hstarted : run.started = requestsSent run.events := by
    rw [h.started, Nat.zero_add]
  have honce : ∀ n, sendsOf n run.events ≤ 1 := fun n =>
    Nat.le_trans (h.once n) (by split <;> decide)
  have hfinished := h.finished
  rcases hend : run.end_ with s | c | - | -
  · have hattempts := h.succeeded s hend
    rw [hend] at hfinished
    unfold InvocationTerminal.finish
    dsimp only
    split
    · rename_i f hf
      have hcounts := fun n => serviceBreaker_counts n run.events (.failure f)
      refine ⟨fun n => ?_, fun n => ?_, ?_,
        fun e he => absurd he InterceptorResult.ok_ne_error, fun r hr => ?_⟩
      · rw [(hcounts n).1, (hcounts n).2.1]
        exact hfinished n
      · rw [(hcounts n).2.1]
        exact honce n
      · rw [(hcounts 0).2.2]
        exact hstarted
      · cases hr
        exact Nat.le_of_eq hattempts
    · split
      · refine ⟨fun n => hfinished n, honce, hstarted,
          fun e he => absurd he InterceptorResult.ok_ne_error, fun r hr => ?_⟩
        cases hr
        exact Nat.le_of_eq hattempts
      · refine ⟨fun n => ?_, fun n => ?_, ?_,
        fun e he => absurd he InterceptorResult.ok_ne_error, fun r hr => ?_⟩
        · rw [(serviceBreaker_counts n run.events _).1, (serviceBreaker_counts n run.events _).2.1]
          exact hfinished n
        · rw [(serviceBreaker_counts n run.events _).2.1]
          exact honce n
        · rw [(serviceBreaker_counts 0 run.events _).2.2]
          exact hstarted
        · cases hr
          exact Nat.le_of_eq hattempts
  · rw [hend] at hfinished
    refine ⟨fun n => ?_, fun n => ?_, ?_, fun e he => ?_,
      fun r hr => absurd hr.symm InterceptorResult.ok_ne_error⟩
    · show finishes n (run.events ++ [_]) + 0 = sendsOf n (run.events ++ [_])
      rw [(serviceBreaker_counts n run.events _).1, (serviceBreaker_counts n run.events _).2.1]
      exact hfinished n
    · show sendsOf n (run.events ++ [_]) ≤ 1
      rw [(serviceBreaker_counts n run.events _).2.1]
      exact honce n
    · show run.started = requestsSent (run.events ++ [_])
      rw [(serviceBreaker_counts 0 run.events _).2.2]
      exact hstarted
    · cases he
      exact h.failed c hend
  · exact absurd hend h.whole.1
  · exact absurd hend h.whole.2

section Calls

variable {client : Client} {world : World}

theorem callAccount_nil {side : TerminalSide} {result : Option InterceptorResult}
    (hside : side.started = 0) (hpending : ∀ n, pending n result = 0)
    (herror : ∀ e, result = some (.error e) → e.attempts = 0)
    (hresponse : ∀ r, result = some (.ok r) → r.attempts = 0) : CallAccount ⟨[], side, result⟩ where
  finished n := by
    show 0 + pending n result = 0
    rw [hpending]
  once _ := Nat.zero_le _
  started := hside
  error e he := Nat.le_of_eq (by rw [herror e he, hside])
  response r hr := Nat.le_of_eq (by rw [hresponse r hr, hside])

theorem execute_account (hwhole : ∀ n, Undisturbed (world.attempts n) n)
    (hcount : ∀ n, Countable (world.attempts n) n) :
    CallAccount (InvocationTerminal.execute client world) := by
  unfold InvocationTerminal.execute
  split
  · refine callAccount_nil rfl (fun _ => rfl) (fun e he => ?_) fun r hr =>
      absurd hr.symm InterceptorResult.ok_ne_error
    cases he
    rfl
  · exact finish_account ((executeAttempts_loop client world.attempts).account hwhole hcount rfl)

theorem call_account (hcalls : CountableCall world)
    (h : CallAccount (InvocationTerminal.execute client world)) :
    CallAccount (Next.run (InvocationTerminal.execute client world) InvocationTerminal.idle
      world.callInterceptors) := by
  obtain ⟨drops, hevents, hdrops⟩ := @Next.run_events _ (InvocationTerminal.execute client world)
    InvocationTerminal.idle world.callInterceptors
  have hside := @Next.run_side _ (InvocationTerminal.execute client world)
    InvocationTerminal.idle world.callInterceptors
  have hfinishes := fun n => @finishes_run _ (InvocationTerminal.execute client world)
    InvocationTerminal.idle world.callInterceptors hcalls.kept n
  have hsettlement := fun event hevent => Event.isSettlement_of_isDrop (hdrops event hevent)
  have hsends : ∀ n, sendsOf n (Next.run (InvocationTerminal.execute client world)
      InvocationTerminal.idle world.callInterceptors).events =
      if reachesTerminal world.callInterceptors then
        sendsOf n (InvocationTerminal.execute client world).events else 0 := by
    intro n
    rw [hevents, sendsOf_append, sendsOf_settlements n hsettlement]
    split <;> rfl
  refine ⟨fun n => ?_, fun n => ?_, ?_, fun e he => ?_, fun r hr => ?_⟩
  · rw [hfinishes, hsends]
    split
    · exact h.finished n
    · rfl
  · rw [hsends]
    split
    · exact h.once n
    · exact Nat.zero_le 1
  · rw [hside, hevents, requestsSent_append,
      requestsSent_eq_zero fun event hevent => (Event.plain_of_isSettlement (hsettlement event hevent)).1]
    split
    · exact h.started
    · rfl
  · rw [hside]
    refine @Next.run_error _ _ _ _ (fun e => e.attempts ≤ _) (fun hreach e he => ?_)
      (fun i hi result e he => ?_) e he
    · rw [if_pos hreach]
      exact h.error e he
    · rw [hcalls.errors i hi result e he]
      exact Nat.zero_le _
  · rw [hside]
    refine @Next.run_ok _ _ _ _ (fun r => r.attempts ≤ _) (fun hreach r hr => ?_)
      (fun r body hr => hr) (fun i hi result r hr => ?_) r hr
    · rw [if_pos hreach]
      exact h.response r hr
    · show r.attempts ≤ _
      rw [hcalls.foreign i hi result r hr]
      exact Nat.zero_le _

theorem finishes_permits (n : Nat) (endpointPermit : Option Nat) (servicePermit : Bool)
    (outcome : PermitOutcome) : finishes n (finishPermits endpointPermit servicePermit outcome) = 0 := by
  refine List.countP_eq_zero.mpr fun event h => ?_
  rcases mem_finishPermits h with ⟨m, -, rfl⟩ | ⟨-, rfl⟩ <;> exact Bool.false_ne_true

theorem finishes_succeed (n : Nat) (held : Option Nat) :
    finishes n (succeedEndpointBreaker held) = 0 := by
  refine List.countP_eq_zero.mpr fun event h => ?_
  obtain ⟨m, rfl⟩ := mem_succeedEndpointBreaker h
  exact Bool.false_ne_true

theorem finishes_finishResultFailure (n : Nat) (response : Response) (endpointPermit : Option Nat) :
    finishes n (finishResultFailure response endpointPermit) = pending n (some (.ok response)) := by
  have hundecodable : finishes n (response.attemptCompletion.toList.map Event.undecodable) = 0 := by
    cases response.attemptCompletion <;> rfl
  unfold finishResultFailure
  split
  · rw [finishes_append, finishes_append, hundecodable, finishes_finishAttempt, finishes_permits]
    omega
  · rw [finishes_append, finishes_finishAttempt, finishes_permits]
    omega

/-- A response's settlement finishes its completion. -/
theorem finishResponse_counts (world : World) (side : TerminalSide) (response : Response) (n : Nat) :
    finishes n (finishResponse world side response).1 = pending n (some (.ok response)) ∧
      (finishResponse world side response).2.attempts = max response.attempts side.started := by
  have hsucceeded : finishes n (if response.tracksEndpointBreaker then []
      else succeedEndpointBreaker side.heldEndpoint) = 0 := by
    split
    · rfl
    · exact finishes_succeed n side.heldEndpoint
  unfold finishResponse
  dsimp only
  split
  · refine ⟨?_, rfl⟩
    rw [finishes_append, finishes_append, hsucceeded, finishes_finishAttempt, finishes_permits]
    omega
  · refine ⟨?_, rfl⟩
    rw [finishes_append, hsucceeded, finishes_finishResultFailure, Nat.zero_add]
  · refine ⟨?_, rfl⟩
    rw [finishes_append, hsucceeded, finishes_finishResultFailure, Nat.zero_add]

/-- The settlement of a call completes its accounts. -/
theorem CallAccount.accounted {ran : Ran TerminalSide} (h : CallAccount ran) :
    Accounted (finishCall world ran) := by
  have hsettled : ∀ {tail : List Event} {result : Option InterceptorResult},
      (∀ event ∈ tail, event.isSettlement = true) →
      (∀ n, finishes n tail = pending n ran.result) →
      (∀ r, result = some r → r.attempts = ran.side.started) →
      Accounted ⟨ran.events ++ tail, result⟩ := by
    intro tail result htail hfinishes hattempts
    have hsends : ∀ n, sendsOf n (ran.events ++ tail) = sendsOf n ran.events := by
      intro n
      rw [sendsOf_append, sendsOf_settlements n htail, Nat.add_zero]
    refine ⟨fun r hr => ?_, fun n => ?_, fun n => ?_⟩
    · show r.attempts = requestsSent (ran.events ++ tail)
      rw [hattempts r hr, h.started, requestsSent_append,
        requestsSent_eq_zero fun event hevent => (Event.plain_of_isSettlement (htail event hevent)).1,
        Nat.add_zero]
    · show sendsOf n (ran.events ++ tail) ≤ 1
      rw [hsends]
      exact h.once n
    · show finishes n (ran.events ++ tail) = sendsOf n (ran.events ++ tail)
      rw [hsends, finishes_append, hfinishes]
      exact h.finished n
  have hstarted : ∀ e : Error, e.attempts ≤ ran.side.started →
      InterceptorResult.attempts (InterceptorResult.withStarted ran.side.started world.requestId
        (.error e)) = ran.side.started := fun e he => Nat.max_eq_right he
  unfold finishCall
  rcases hresult : ran.result with - | e | response
  · refine hsettled (fun event hevent => ?_) (fun n => ?_) fun r hr => ?_
    · obtain ⟨m, -, rfl⟩ := List.mem_map.mp hevent
      rfl
    · rw [hresult]
      cases ran.side.heldEndpoint <;> rfl
    · unfold cutOffError at hr
      cases hcut : world.cutOff with
      | caller =>
        rw [hcut] at hr
        nomatch hr
      | _ =>
        rw [hcut] at hr
        cases hr
        exact hstarted _ (Nat.zero_le _)
  · refine hsettled (fun event hevent => ?_) (fun n => ?_) fun r hr => ?_
    · obtain ⟨m, rfl⟩ := mem_succeedEndpointBreaker hevent
      rfl
    · rw [hresult]
      exact finishes_succeed n ran.side.heldEndpoint
    · cases hr
      exact hstarted e (h.error e hresult)
  · refine hsettled (fun event => isSettlement_finishResponse) (fun n => ?_) fun r hr => ?_
    · rw [hresult]
      exact (finishResponse_counts world ran.side response n).1
    · have hattempts := (finishResponse_counts world ran.side response 0).2
      rw [Nat.max_eq_right (h.response response hresult)] at hattempts
      cases hr
      cases hfinished : (finishResponse world ran.side response).2 with
      | ok r =>
        rw [hfinished] at hattempts
        exact hattempts
      | error e =>
        rw [hfinished] at hattempts
        exact hstarted e (Nat.le_of_eq hattempts)

theorem AdmissionFate.attempts_error {fate : AdmissionFate} {e : Error} (h : fate.error = some e) :
    e.attempts = 0 := by
  cases fate <;> cases h <;> rfl

theorem refused_accounted {e : Error} (h : e.attempts = 0) : Accounted (refused world e) := by
  refine ⟨fun r hr => ?_, fun n => Nat.zero_le _, fun n => rfl⟩
  cases hr
  exact h

end Calls

/-! ## An attempt that ends twice -/

/-- An invocation whose attempt interceptor answers the server's answer with an error. -/
def faultedAnswer : World :=
  answeredCall fun _ => { answeredAttempt with interceptors := [.fault interceptorPanicked] }

/-- **An answer of which an interceptor keeps a clone is not finished** by the invocation, if the
interceptor answers with a response of its own. -/
theorem keptAnswer_unfinished (r : ForeignResponse) :
    let world := answeredCall fun _ =>
      { answeredAttempt with interceptors := [⟨true, fun _ => some (.foreign r), fun _ => true⟩] }
    sendsOf 1 (invoke usersClient world).events = 1 ∧
      finishes 1 (invoke usersClient world).events = 0 :=
  ⟨rfl, rfl⟩

/-- An invocation that is refused a connection, and answered when it tries again. -/
def reconnectedCall : World :=
  answeredCall fun n => if n = 1 then { answeredAttempt with fate := .failed .connect } else answeredAttempt

end Fusen.Invocation
