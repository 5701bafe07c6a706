import Fusen.Invocation.RetryBounds

/-!
# Whom an invocation blames

A breaker should record a failure, and an attempt should be tried again, for what went
wrong at the remote side (`BlamesRemote`).  An error that is made locally is classified by
its category and hint like any other, so this holds of the runs whose local errors are
`Quiet` (`blamesRemote_of_quiet`); a local error that looks like a timeout is retried and
counted against the service (`interceptorTimeout_blamed`).
-/

namespace Fusen.Invocation

open Lib Contract Resilience

/-! ## What should hold -/

/-- Attempt `n` was sent, and its transport, its deadline or its answer failed in a class that
breakers count. -/
def FailedRemotely (events : List Event) (n : Nat) : Prop :=
  .sent n ∈ events ∧
    ((∃ f, .observed n f ∈ events ∧ f.breakerImpact = .failure) ∨ .undecodable n ∈ events)

/-- Only remote failures are retried or punished.  The service breaker's failure is that of
an attempt that was not followed by another. -/
structure BlamesRemote (events : List Event) : Prop where
  endpoint : ∀ n outcome, .endpointBreaker n outcome ∈ events → outcome.impact = .failure →
    FailedRemotely events n
  service : ∀ outcome, .serviceBreaker outcome ∈ events → outcome.impact = .failure →
    ∃ n, FailedRemotely events n ∧ ∀ event ∈ events, ¬ event.grants n
  retry : ∀ event ∈ events, ∀ n, event.grants n →
    .sent n ∈ events ∧ ∃ f, .observed n f ∈ events ∧ f.isRetryable = true

/-! ## Quiet errors -/

/-- An error of a class that is neither retried nor counted. -/
def Quiet (e : Error) : Prop :=
  (classifyError e).isRetryable = false ∧ (classifyError e).breakerImpact ≠ .failure

instance (e : Error) : Decidable (Quiet e) := by
  unfold Quiet
  infer_instance

/-- **The local errors that are quiet**: application errors, and framework errors without a
retryable hint that claim neither a missed deadline nor a loss of data. -/
theorem quiet_iff {e : Error} (h : e.origin = .local_) :
    Quiet e ↔ e.kind = .application ∨ e.retryHint.isRetryable = false ∧
      e.category ≠ .deadlineExceeded ∧ e.category ≠ .dataLoss := by
  unfold Quiet classifyError
  rw [h]
  cases hkind : e.kind with
  | application => simp [FailureClass.isRetryable, FailureClass.breakerImpact]
  | framework =>
    simp only [reduceCtorEq, false_or]
    unfold classifyLocal
    cases hhint : e.retryHint.isRetryable with
    | true => simp [FailureClass.isRetryable]
    | false =>
      cases e.category <;> simp [FailureClass.isRetryable, FailureClass.breakerImpact]

theorem quiet_fresh {category : ErrorCategory} {code : ErrorCode} {message : Text}
    {status : StatusCode} (hdeadline : category ≠ .deadlineExceeded) (hloss : category ≠ .dataLoss) :
    Quiet (.fresh .framework category code message status) :=
  (quiet_iff rfl).mpr (Or.inr ⟨rfl, hdeadline, hloss⟩)

/-- What the code outside the runtime makes of an attempt is quiet: its errors are, and a
response of another origin that calls itself remote is of the return type. -/
structure QuietWorld (decodes : Text → Option Bool) (world : AttemptWorld) : Prop where
  interceptors : ∀ i ∈ world.interceptors, ∀ result e, i.reply result = some (.error e) → Quiet e
  foreign : ∀ i ∈ world.interceptors, ∀ result r, i.reply result = some (.foreign r) →
    r.wireOrigin = true → decodes r.body = some true
  routers : ∀ router ∈ world.routers, ∀ routed e, router routed = some (.error e) → Quiet e
  loadBalancer : ∀ eligible e, world.loadBalancer eligible = some (.error e) → Quiet e
  encoder : ∀ e, world.fate = .unencodable e → Quiet e

theorem quiet_selectEndpoint {decodes : Text → Option Bool} {client : Client}
    {world : AttemptWorld} (hquiet : QuietWorld decodes world) {attempted : List ServiceEndpoint}
    {before : List Event} {e : Error}
    (h : selectEndpoint client world.toSelectionWorld attempted = (before, .error e)) :
    Quiet e := by
  refine selectEndpoint_error (fun e he => ?_) hquiet.routers hquiet.loadBalancer h
  simp only [selectionErrors, List.mem_cons, List.not_mem_nil, or_false] at he
  rcases he with rfl | rfl | rfl | rfl | rfl | rfl | rfl <;> exact quiet_fresh (by decide) (by decide)

/-! ## The attempt interceptors -/

section Attempts

variable {decodes : Text → Option Bool} {world : AttemptWorld} {attempt started : Nat}

/-- An attempt fails quietly, or its terminal has seen it fail. -/
theorem quiet_ran (hquiet : QuietWorld decodes world) {e : Error}
    (h : (world.ran attempt started).result = some (.error e)) :
    Quiet e ∨ world.observed.isSome = true := by
  refine @Next.run_error _ _ _ _ (fun e => Quiet e ∨ world.observed.isSome = true)
    (fun hreach e he => ?_) (fun i hi result e he => Or.inl (hquiet.interceptors i hi result e he))
    e h
  have hobserved : world.observed = world.fate.observed := if_pos hreach
  rw [hobserved]
  rcases hfate : world.fate with - | e' | handed | - | kind | decode | -
  all_goals rw [hfate] at he
  · cases he
    exact Or.inl (quiet_fresh (by decide) (by decide))
  · cases he
    exact Or.inl (hquiet.encoder e hfate)
  · cases he
    exact Or.inl (quiet_fresh (by decide) (by decide))
  · exact Or.inr rfl
  · exact Or.inr rfl
  · rcases decode with - | e' | body | -
    · exact Or.inr rfl
    · exact Or.inr rfl
    · nomatch he
    · nomatch he
  · nomatch he

/-- A response that calls itself remote is the attempt's own, or of the return type. -/
theorem wireOrigin_ran (hquiet : QuietWorld decodes world) {response : Response}
    (h : (world.ran attempt started).result = some (.ok response))
    (hwire : response.wireOrigin = true) :
    decodes response.body = some true ∨
      response.attemptCompletion = some attempt ∧ world.sends = true ∧ world.observed = none := by
  refine @Next.run_ok _ _ _ _ (fun r => r.wireOrigin = true → decodes r.body = some true ∨
      r.attemptCompletion = some attempt ∧ world.sends = true ∧ world.observed = none)
    (fun hreach r hr hwire => ?_) (fun _ _ _ => nofun)
    (fun i hi result r hr hwire => Or.inl (hquiet.foreign i hi result r hr hwire)) response h hwire
  have hobserved : world.observed = world.fate.observed := if_pos hreach
  have hsends : world.sends = world.fate.sends := by
    unfold AttemptWorld.sends
    rw [hreach, Bool.true_and]
  rw [hobserved, hsends]
  rcases hfate : world.fate with - | e | handed | - | kind | decode | -
  all_goals rw [hfate] at hr
  case answered =>
    rcases decode with - | e | body | -
    case decoded =>
      cases hr
      exact Or.inr ⟨rfl, rfl, rfl⟩
    all_goals nomatch hr
  all_goals nomatch hr

end Attempts

/-! ## One turn -/

/-- The attempt was sent, and its terminal saw the failure. -/
def Saw (events : List Event) (n : Nat) (f : FailureClass) : Prop :=
  .sent n ∈ events ∧ .observed n f ∈ events

section Turns

variable {decodes : Text → Option Bool} {client : Client} {world : AttemptWorld}
  {attempted : List ServiceEndpoint} {attempt started : Nat}

theorem saw_ran {f : FailureClass} (h : world.observed = some f) :
    Saw (world.ran attempt started).events attempt f := by
  obtain ⟨drops, hevents, -⟩ := world.ran_events attempt started
  rw [hevents, if_pos (AttemptWorld.sends_of_observed h), h]
  exact ⟨List.mem_append_left _ (List.mem_append_left _ (List.mem_singleton_self _)),
    List.mem_append_left _ (List.mem_append_right _ (List.mem_singleton_self _))⟩

theorem saw_turn {before : List Event} {selected : SelectedEndpoint}
    (hselect : selectEndpoint client world.toSelectionWorld attempted = (before, .ok selected))
    {f : FailureClass} (h : world.observed = some f) :
    Saw (attemptOnce client world attempted attempt started).events attempt f :=
  ⟨ran_subset hselect (saw_ran h).1, ran_subset hselect (saw_ran h).2⟩

theorem failure_of_impact {outcome : PermitOutcome} (h : outcome.impact = .failure) :
    ∃ f, outcome = .failure f ∧ f.breakerImpact = .failure := by
  cases outcome with
  | failure f => exact ⟨f, rfl, h⟩
  | _ => nomatch h

/-- A settlement reports to the endpoint breaker no failure but the one that was seen. -/
theorem mem_settle_endpoint {endpoint : ServiceEndpoint} {called : Called}
    {result : Option InterceptorResult} {n : Nat} {f : FailureClass}
    (h : .endpointBreaker n (.failure f) ∈
      (settle client world attempt endpoint called result).1) :
    n = attempt ∧ called.observation.failure = some f := by
  rcases result with - | e | response
  · nomatch List.mem_singleton.mp h
  · obtain ⟨after, hafter, hsettle⟩ := settleFailure_events client world attempt endpoint called e
    replace hsettle : settle client world attempt endpoint called (some (.error e)) = _ := hsettle
    rw [hsettle, List.mem_append, List.mem_cons] at h
    rcases h with (h | h) | h
    · obtain ⟨rfl, houtcome⟩ := Event.endpointBreaker.inj h
      refine ⟨rfl, ?_⟩
      unfold permitOutcome at houtcome
      split at houtcome
      · rename_i hfailure
        rw [hfailure, PermitOutcome.failure.inj houtcome]
      · split at houtcome
        · nomatch houtcome
        · split at houtcome <;> nomatch houtcome
    · split at h
      · nomatch List.mem_singleton.mp h
      · nomatch h
    · cases hafter with
      | late => nomatch h
      | stopped => nomatch List.mem_singleton.mp h
      | granted =>
        rcases List.mem_cons.mp h with h | h
        · nomatch h
        · nomatch List.mem_singleton.mp h
  · replace h : _ ∈ (settleSuccess attempt called response).1 := h
    unfold settleSuccess at h
    split at h
    · rename_i failure hfailure
      rcases List.mem_cons.mp h with h | h
      · nomatch h
      · obtain ⟨rfl, houtcome⟩ := Event.endpointBreaker.inj (List.mem_singleton.mp h)
        exact ⟨rfl, hfailure.trans (congrArg some (PermitOutcome.failure.inj houtcome).symm)⟩
    · split at h
      · nomatch h
      · nomatch List.mem_singleton.mp h

theorem endpoint_turn {n : Nat} {outcome : PermitOutcome}
    (h : .endpointBreaker n outcome ∈ (attemptOnce client world attempted attempt started).events)
    (himpact : outcome.impact = .failure) :
    ∃ f, Saw (attemptOnce client world attempted attempt started).events n f ∧
      f.breakerImpact = .failure := by
  obtain ⟨f, rfl, hf⟩ := failure_of_impact himpact
  rcases mem_attemptOnce h with ⟨x, h⟩ | ⟨before, selected, hselect, h | h | h, -⟩
  · nomatch h
  · nomatch h
  · rcases AttemptWorld.mem_ran h with ⟨h, -⟩ | ⟨f', -, h⟩ | h
    · nomatch h
    · nomatch h
    · exact absurd h id
  · obtain ⟨rfl, hfailure⟩ := mem_settle_endpoint h
    rw [AttemptWorld.ran_failure] at hfailure
    exact ⟨f, saw_turn hselect hfailure, hf⟩

/-- A class that is retried or counted was seen, if local errors are quiet. -/
theorem observed_of_loud (hquiet : QuietWorld decodes world) {e : Error}
    (hresult : (world.ran attempt started).result = some (.error e)) {f : FailureClass}
    (hf : f = attemptFailure (world.ran attempt started).side.observation e)
    (hloud : f.isRetryable = true ∨ f.breakerImpact = .failure) : world.observed = some f := by
  unfold attemptFailure at hf
  rw [AttemptWorld.ran_failure] at hf
  cases hobserved : world.observed with
  | some g =>
    rw [hobserved] at hf
    rw [hf]
    rfl
  | none =>
    rw [hobserved] at hf
    rcases quiet_ran hquiet hresult with hq | hsome
    · rcases hloud with hloud | hloud
      · rw [hf] at hloud
        exact absurd (hq.1.symm.trans hloud) Bool.false_ne_true
      · rw [hf] at hloud
        exact absurd hloud hq.2
    · rw [hobserved] at hsome
      nomatch hsome

/-- Where a turn grants a retry. -/
theorem grants_cases {event : Event} {n : Nat}
    (h : event ∈ (attemptOnce client world attempted attempt started).events)
    (hgrants : event.grants n) :
    n = attempt ∧ ∃ before selected e failure,
      selectEndpoint client world.toSelectionWorld attempted = (before, .ok selected) ∧
      (world.ran attempt started).result = some (.error e) ∧
      failure = attemptFailure (world.ran attempt started).side.observation e ∧
      retryDelay client world attempt
        (retryAfter (world.ran attempt started).side.observation e) < world.remaining ∧
      (retryDecision client world attempt failure).1 = some .retry := by
  have hdecided : event.isDecision n = true := by
    cases event <;> first | exact absurd hgrants id | exact beq_iff_eq.mpr hgrants.1
  rcases mem_attemptOnce h with ⟨x, rfl⟩ | ⟨before, selected, hselect, rfl | h | h, -⟩
  · nomatch hgrants
  · nomatch hgrants
  · rw [(mem_ran_plain h).2.1 n] at hdecided
    nomatch hdecided
  · rcases mem_settle h with h | ⟨e, failure, hresult, hfailure, hdelay, rfl | ⟨rfl, -⟩⟩
    · rw [(Event.plain_of_isSettlement (Event.isSettlement_of_settles h)).2.2 n] at hdecided
      nomatch hdecided
    · obtain ⟨rfl, hretry⟩ := hgrants
      exact ⟨rfl, before, selected, e, failure, hselect, hresult, hfailure, hdelay, hretry⟩
    · nomatch hgrants

/-- A granted retry follows a failure that was seen. -/
theorem grants_turn (hquiet : QuietWorld decodes world) {event : Event} {n : Nat}
    (h : event ∈ (attemptOnce client world attempted attempt started).events)
    (hgrants : event.grants n) :
    n = attempt ∧ ∃ f, Saw (attemptOnce client world attempted attempt started).events n f ∧
      f.isRetryable = true := by
  obtain ⟨rfl, before, selected, e, failure, hselect, hresult, hfailure, -, hretry⟩ :=
    grants_cases h hgrants
  have hgranted := (decideWithGuards_retry_iff.mp (Prod.ext hretry rfl)).1
  have hretryable : failure.isRetryable = true := hgranted.failure
  exact ⟨rfl, failure,
    saw_turn hselect (observed_of_loud hquiet hresult hfailure (Or.inl hretryable)), hretryable⟩

/-- A turn that ends in a failure that is counted has seen it, and is the last. -/
theorem failed_turn (hquiet : QuietWorld decodes world) {c : ClassifiedError}
    (h : (attemptOnce client world attempted attempt started).outcome = .failed c)
    (himpact : c.failure.breakerImpact = .failure) :
    Saw (attemptOnce client world attempted attempt started).events attempt c.failure ∧
      ∀ event ∈ (attemptOnce client world attempted attempt started).events, ∀ n,
        ¬ event.grants n := by
  rcases hselect : selectEndpoint client world.toSelectionWorld attempted with ⟨before, e | selected⟩
  · unfold attemptOnce at h
    rw [hselect] at h
    cases h
    exact absurd himpact (quiet_selectEndpoint hquiet hselect).2
  rw [attemptOnce_of_selected hselect] at h
  rcases hresult : (world.ran attempt started).result with - | e | response
  all_goals rw [hresult] at h
  · nomatch h
  · obtain ⟨after, hafter, hsettle⟩ := settleFailure_events client world attempt
      selected.instance_.endpoint (world.ran attempt started).side e
    replace h : (settleFailure client world attempt selected.instance_.endpoint
      (world.ran attempt started).side e).2 = .failed c := h
    rw [hsettle] at h
    -- a grant would have let the turn go on
    have hfinal : c.failure = attemptFailure (world.ran attempt started).side.observation e ∧
        ∀ event ∈ (attemptOnce client world attempted attempt started).events, ∀ n,
          ¬ event.grants n := by
      cases hafter with
      | late hlate =>
        obtain rfl := TurnOutcome.failed.inj h
        refine ⟨rfl, fun event hevent n hgrants => ?_⟩
        obtain ⟨-, -, -, e', failure, -, hresult', -, hdelay, -⟩ := grants_cases hevent hgrants
        cases hresult.symm.trans hresult'
        exact absurd hdelay (Nat.not_lt.mpr hlate)
      | stopped hdelay hdecision =>
        obtain rfl := TurnOutcome.failed.inj h
        refine ⟨rfl, fun event hevent n hgrants => ?_⟩
        obtain ⟨-, -, -, e', failure, -, hresult', rfl, -, hretry⟩ := grants_cases hevent hgrants
        cases hresult.symm.trans hresult'
        exact hdecision hretry
      | @granted hdelay hdecision outcome houtcome =>
        obtain rfl : outcome = .failed c := h
        rcases houtcome with houtcome | ⟨houtcome, -⟩ | houtcome
        · nomatch houtcome
        · nomatch houtcome
        · obtain rfl := TurnOutcome.failed.inj houtcome
          nomatch himpact
    exact ⟨saw_turn hselect (observed_of_loud hquiet hresult hfinal.1 (Or.inr himpact)), hfinal.2⟩
  · nomatch h

/-- What a turn that succeeds hands over. -/
structure Handed (decodes : Text → Option Bool) (events : List Event) (attempt : Nat)
    (s : AttemptSuccess) : Prop where
  counted : ∀ f, s.serviceBreakerFailure = some f → Saw events attempt f
  last : ∀ event ∈ events, ∀ n, ¬ event.grants n
  own : s.response.wireOrigin = true → decodes s.response.body = some true ∨
    s.response.attemptCompletion = some attempt ∧ .sent attempt ∈ events ∧
      s.serviceBreakerFailure = none
  permit : ∀ n, s.endpointPermit = some n → n = attempt

theorem succeeded_turn (hquiet : QuietWorld decodes world) {s : AttemptSuccess}
    (h : (attemptOnce client world attempted attempt started).outcome = .succeeded s) :
    Handed decodes (attemptOnce client world attempted attempt started).events attempt s := by
  rcases hselect : selectEndpoint client world.toSelectionWorld attempted with ⟨before, e | selected⟩
  · unfold attemptOnce at h
    rw [hselect] at h
    nomatch h
  have hturn := @attemptOnce_of_selected client world attempted attempt started before selected hselect
  rw [hturn] at h
  rcases hresult : (world.ran attempt started).result with - | e | response
  all_goals rw [hresult] at h
  · nomatch h
  · obtain ⟨after, hafter, hsettle⟩ := settleFailure_events client world attempt
      selected.instance_.endpoint (world.ran attempt started).side e
    replace h : (settleFailure client world attempt selected.instance_.endpoint
      (world.ran attempt started).side e).2 = .succeeded s := h
    rw [hsettle] at h
    cases hafter with
    | late => nomatch h
    | stopped => nomatch h
    | @granted hdelay hdecision outcome houtcome =>
      obtain rfl : outcome = .succeeded s := h
      rcases houtcome with houtcome | ⟨houtcome, -⟩ | houtcome <;> nomatch houtcome
  · obtain rfl : (settleSuccess attempt (world.ran attempt started).side response).2 = s :=
      TurnOutcome.succeeded.inj h
    have hlast : ∀ event ∈ (attemptOnce client world attempted attempt started).events, ∀ n,
        ¬ event.grants n := by
      intro event hevent n hgrants
      obtain ⟨-, -, -, e', failure, -, hresult', -⟩ := grants_cases hevent hgrants
      nomatch hresult.symm.trans hresult'
    have hown := fun hwire => wireOrigin_ran hquiet hresult hwire
    have hfailure := world.ran_failure attempt started
    unfold settleSuccess
    dsimp only
    split
    · rename_i f hf
      rw [hfailure] at hf
      refine ⟨fun g hg => ?_, hlast, fun hwire => ?_, nofun⟩
      · cases hg
        exact saw_turn hselect hf
      · refine (hown hwire).imp_right fun h => ?_
        rw [h.2.2] at hf
        nomatch hf
    · have hsent : world.sends = true → .sent attempt ∈
          (attemptOnce client world attempted attempt started).events := by
        intro hsends
        obtain ⟨drops, hevents, -⟩ := world.ran_events attempt started
        refine ran_subset hselect ?_
        rw [hevents, if_pos hsends]
        exact List.mem_append_left _ (List.mem_append_left _ (List.mem_singleton_self _))
      split
      · exact ⟨nofun, hlast, fun hwire => (hown hwire).imp_right fun h => ⟨h.1, hsent h.2.1, rfl⟩,
          fun n hn => (Option.some.inj hn).symm⟩
      · exact ⟨nofun, hlast, fun hwire => (hown hwire).imp_right fun h => ⟨h.1, hsent h.2.1, rfl⟩,
          nofun⟩

end Turns

/-! ## The loop -/

section Loops

variable {decodes : Text → Option Bool} {client : Client} {worlds : Nat → AttemptWorld}
  {attempted : List ServiceEndpoint} {attempt started : Nat} {run : LoopRun}

theorem Saw.append_left {a b : List Event} {n : Nat} {f : FailureClass} (h : Saw a n f) :
    Saw (a ++ b) n f :=
  ⟨List.mem_append_left _ h.1, List.mem_append_left _ h.2⟩

theorem Saw.append_right {a b : List Event} {n : Nat} {f : FailureClass} (h : Saw b n f) :
    Saw (a ++ b) n f :=
  ⟨List.mem_append_right _ h.1, List.mem_append_right _ h.2⟩

/-- The attempts leave the service breaker alone. -/
theorem service_turn {client : Client} {world : AttemptWorld} {outcome : PermitOutcome}
    (h : .serviceBreaker outcome ∈ (attemptOnce client world attempted attempt started).events) :
    outcome = .abandoned := by
  rcases mem_attemptOnce h with ⟨x, h⟩ | ⟨before, selected, hselect, h | h | h, -⟩
  · nomatch h
  · nomatch h
  · rcases AttemptWorld.mem_ran h with ⟨h, -⟩ | ⟨f, -, h⟩ | h
    · nomatch h
    · nomatch h
    · exact h
  · rcases mem_settle h with h | ⟨e, failure, -, -, -, h | ⟨h, -⟩⟩
    · exact absurd h id
    · nomatch h
    · nomatch h

/-- Whom the attempts blame. -/
structure LoopBlame (decodes : Text → Option Bool) (run : LoopRun) (attempt : Nat) : Prop where
  endpoint : ∀ n outcome, .endpointBreaker n outcome ∈ run.events → outcome.impact = .failure →
    ∃ f, Saw run.events n f ∧ f.breakerImpact = .failure
  service : ∀ outcome, .serviceBreaker outcome ∈ run.events → outcome = .abandoned
  retry : ∀ event ∈ run.events, ∀ n, event.grants n →
    attempt ≤ n ∧ ∃ f, Saw run.events n f ∧ f.isRetryable = true
  failed : ∀ c, run.end_ = .failed c → c.failure.breakerImpact = .failure →
    ∃ n, attempt ≤ n ∧ Saw run.events n c.failure ∧ ∀ event ∈ run.events, ¬ event.grants n
  succeeded : ∀ s, run.end_ = .succeeded s → ∃ n, attempt ≤ n ∧
    (∀ event ∈ run.events, ¬ event.grants n) ∧
    (∀ f, s.serviceBreakerFailure = some f → Saw run.events n f) ∧
    (s.response.wireOrigin = true → decodes s.response.body = some true ∨
      s.response.attemptCompletion = some n ∧ .sent n ∈ run.events ∧
        s.serviceBreakerFailure = none) ∧
    ∀ m, s.endpointPermit = some m → m = n

theorem Loop.blame (h : Loop client worlds attempted attempt started run)
    (hquiet : ∀ n, QuietWorld decodes (worlds n)) : LoopBlame decodes run attempt := by
  induction h with
  | @last attempted attempt started end_ hattempt hend =>
    refine ⟨fun n outcome => endpoint_turn, fun outcome => service_turn,
      fun event hevent n hgrants => ?_, fun c hc himpact => ?_, fun s hs => ?_⟩
    · obtain ⟨rfl, h⟩ := grants_turn (hquiet _) hevent hgrants
      exact ⟨le_refl _, h⟩
    · have houtcome : (attemptOnce client (worlds attempt) attempted attempt started).outcome =
          .failed c := by
        obtain rfl : end_ = .failed c := hc
        cases hout : (attemptOnce client (worlds attempt) attempted attempt started).outcome with
        | failed c' =>
          rw [hout] at hend
          rw [LoopEnd.failed.inj (Option.some.inj hend)]
        | _ =>
          rw [hout] at hend
          nomatch hend
      obtain ⟨hsaw, hlast⟩ := failed_turn (hquiet attempt) houtcome himpact
      exact ⟨attempt, le_refl _, hsaw, fun event hevent => hlast event hevent attempt⟩
    · have houtcome : (attemptOnce client (worlds attempt) attempted attempt started).outcome =
          .succeeded s := by
        obtain rfl : end_ = .succeeded s := hs
        cases hout : (attemptOnce client (worlds attempt) attempted attempt started).outcome with
        | succeeded s' =>
          rw [hout] at hend
          rw [LoopEnd.succeeded.inj (Option.some.inj hend)]
        | _ =>
          rw [hout] at hend
          nomatch hend
      obtain ⟨hcounted, hlast, hown, hpermit⟩ := succeeded_turn (hquiet attempt) houtcome
      exact ⟨attempt, le_refl _, fun event hevent => hlast event hevent attempt, hcounted, hown,
        hpermit⟩
  | @again attempted attempt started endpoint rest hattempt hagain hrest ih =>
    have hnext : ∀ n, attempt + 1 ≤ n →
        (∀ event ∈ rest.events, ¬ event.grants n) →
        ∀ event ∈ (attemptOnce client (worlds attempt) attempted attempt started).events ++
          rest.events, ¬ event.grants n := by
      intro n hn hnone event hevent hgrants
      rcases List.mem_append.mp hevent with hevent | hevent
      · obtain ⟨rfl, -⟩ := grants_turn (hquiet attempt) hevent hgrants
        omega
      · exact hnone event hevent hgrants
    refine ⟨fun n outcome hmem himpact => ?_,
      fun outcome hmem => (List.mem_append.mp hmem).elim service_turn (ih.service outcome),
      fun event hevent n hgrants => ?_, fun c hc himpact => ?_, fun s hs => ?_⟩
    · rcases List.mem_append.mp hmem with hmem | hmem
      · obtain ⟨f, hsaw, hf⟩ := endpoint_turn hmem himpact
        exact ⟨f, hsaw.append_left, hf⟩
      · obtain ⟨f, hsaw, hf⟩ := ih.endpoint n outcome hmem himpact
        exact ⟨f, hsaw.append_right, hf⟩
    · rcases List.mem_append.mp hevent with hevent | hevent
      · obtain ⟨rfl, f, hsaw, hf⟩ := grants_turn (hquiet attempt) hevent hgrants
        exact ⟨le_refl _, f, hsaw.append_left, hf⟩
      · obtain ⟨hn, f, hsaw, hf⟩ := ih.retry event hevent n hgrants
        exact ⟨by omega, f, hsaw.append_right, hf⟩
    · obtain ⟨n, hn, hsaw, hnone⟩ := ih.failed c hc himpact
      exact ⟨n, by omega, hsaw.append_right, hnext n hn hnone⟩
    · obtain ⟨n, hn, hnone, hcounted, hown, hpermit⟩ := ih.succeeded s hs
      refine ⟨n, by omega, hnext n hn hnone, fun f hf => (hcounted f hf).append_right,
        fun hwire => (hown hwire).imp_right fun h => ?_, hpermit⟩
      exact ⟨h.1, List.mem_append_right _ h.2.1, h.2.2⟩

end Loops

/-! ## The call -/

theorem FailedRemotely.append {a b : List Event} {n : Nat} (h : FailedRemotely a n) :
    FailedRemotely (a ++ b) n := by
  refine ⟨List.mem_append_left _ h.1, h.2.imp ?_ (List.mem_append_left _)⟩
  rintro ⟨f, hf, himpact⟩
  exact ⟨f, List.mem_append_left _ hf, himpact⟩

theorem Saw.failedRemotely {events : List Event} {n : Nat} {f : FailureClass} (h : Saw events n f)
    (himpact : f.breakerImpact = .failure) : FailedRemotely events n :=
  ⟨h.1, Or.inl ⟨f, h.2, himpact⟩⟩

theorem not_grants_of_isSettlement {event : Event} (h : event.isSettlement = true) (n : Nat) :
    ¬ event.grants n := by
  cases event <;> first | exact id | nomatch h

/-- Settlements keep the blame if the failures among them are remote ones. -/
theorem BlamesRemote.append {a b : List Event} (h : BlamesRemote a)
    (hb : ∀ event ∈ b, event.isSettlement = true)
    (hendpoint : ∀ n outcome, .endpointBreaker n outcome ∈ b → outcome.impact = .failure →
      FailedRemotely (a ++ b) n)
    (hservice : ∀ outcome, .serviceBreaker outcome ∈ b → outcome.impact = .failure →
      ∃ n, FailedRemotely (a ++ b) n ∧ ∀ event ∈ a, ¬ event.grants n) :
    BlamesRemote (a ++ b) := by
  have hgrants : ∀ n, (∀ event ∈ a, ¬ event.grants n) → ∀ event ∈ a ++ b, ¬ event.grants n := by
    intro n hn event hevent
    rcases List.mem_append.mp hevent with hevent | hevent
    · exact hn event hevent
    · exact not_grants_of_isSettlement (hb event hevent) n
  refine ⟨fun n outcome hmem himpact => ?_, fun outcome hmem himpact => ?_,
    fun event hevent n hn => ?_⟩
  · rcases List.mem_append.mp hmem with hmem | hmem
    · exact (h.endpoint n outcome hmem himpact).append
    · exact hendpoint n outcome hmem himpact
  · rcases List.mem_append.mp hmem with hmem | hmem
    · obtain ⟨n, hfailed, hnone⟩ := h.service outcome hmem himpact
      exact ⟨n, hfailed.append, hgrants n hnone⟩
    · obtain ⟨n, hfailed, hnone⟩ := hservice outcome hmem himpact
      exact ⟨n, hfailed, hgrants n hnone⟩
  · rcases List.mem_append.mp hevent with hevent | hevent
    · obtain ⟨hsent, f, hf, hretryable⟩ := h.retry event hevent n hn
      exact ⟨List.mem_append_left _ hsent, f, List.mem_append_left _ hf, hretryable⟩
    · exact absurd hn (not_grants_of_isSettlement (hb event hevent) n)

theorem blamesRemote_nil : BlamesRemote [] where
  endpoint _ _ h := absurd h List.not_mem_nil
  service _ h := absurd h List.not_mem_nil
  retry _ h := absurd h List.not_mem_nil

/-- The response is the answer to the last request, and the held permit is that request's. -/
def OwnAnswer (events : List Event) (side : TerminalSide) (response : Response) : Prop :=
  ∃ n, response.attemptCompletion = some n ∧ .sent n ∈ events ∧
    (∀ event ∈ events, ¬ event.grants n) ∧ ∀ m, side.heldEndpoint = some m → m = n

/-- What holds when the call interceptors get the result. -/
structure CallBlame (decodes : Text → Option Bool) (ran : Ran TerminalSide) : Prop where
  blames : BlamesRemote ran.events
  own : ∀ response, ran.result = some (.ok response) → response.wireOrigin = true →
    decodes response.body = some true ∨ OwnAnswer ran.events ran.side response

section Calls

variable {decodes : Text → Option Bool} {client : Client} {world : World}

theorem LoopBlame.blames {run : LoopRun} (h : LoopBlame decodes run 1) :
    BlamesRemote run.events where
  endpoint n outcome hmem himpact := by
    obtain ⟨f, hsaw, hf⟩ := h.endpoint n outcome hmem himpact
    exact hsaw.failedRemotely hf
  service outcome hmem himpact := by
    rw [h.service outcome hmem] at himpact
    nomatch himpact
  retry event hevent n hgrants := by
    obtain ⟨-, f, hsaw, hretryable⟩ := h.retry event hevent n hgrants
    exact ⟨hsaw.1, f, hsaw.2, hretryable⟩

/-- A settlement of the service permit. -/
theorem BlamesRemote.serviceBreaker {events : List Event} (h : BlamesRemote events)
    {outcome : PermitOutcome} (houtcome : outcome.impact = .failure →
      ∃ n, FailedRemotely events n ∧ ∀ event ∈ events, ¬ event.grants n) :
    BlamesRemote (events ++ [.serviceBreaker outcome]) := by
  refine h.append (fun event hevent => ?_) (fun n outcome hmem => ?_) fun other hmem himpact => ?_
  · rw [List.mem_singleton.mp hevent]
    rfl
  · nomatch List.mem_singleton.mp hmem
  · obtain rfl := Event.serviceBreaker.inj (List.mem_singleton.mp hmem)
    obtain ⟨n, hfailed, hnone⟩ := houtcome himpact
    exact ⟨n, hfailed.append, hnone⟩

theorem finish_blame {run : LoopRun} (h : LoopBlame decodes run 1) :
    CallBlame decodes (InvocationTerminal.finish run run.end_) := by
  have hblames := h.blames
  rcases hend : run.end_ with s | c | - | -
  · obtain ⟨n, -, hnone, hcounted, hown, hpermit⟩ := h.succeeded s hend
    unfold InvocationTerminal.finish
    dsimp only
    split
    · rename_i f hf
      refine ⟨hblames.serviceBreaker fun himpact => ⟨n, (hcounted f hf).failedRemotely himpact, hnone⟩,
        fun response hresponse hwire => ?_⟩
      cases hresponse
      refine Or.inl ((hown hwire).resolve_right fun h => ?_)
      rw [hf] at h
      nomatch h.2.2
    · split
      · rename_i m hm
        refine ⟨hblames, fun response hresponse hwire => ?_⟩
        cases hresponse
        exact (hown hwire).imp_right fun h =>
          ⟨n, h.1, h.2.1, hnone, fun k hk => hpermit k (hm.trans hk)⟩
      · refine ⟨hblames.serviceBreaker fun himpact => ?_, fun response hresponse hwire => ?_⟩
        · split at himpact <;> nomatch himpact
        · cases hresponse
          refine (hown hwire).imp_right fun h =>
            ⟨n, h.1, List.mem_append_left _ h.2.1, fun event hevent => ?_, nofun⟩
          rcases List.mem_append.mp hevent with hevent | hevent
          · exact hnone event hevent
          · rw [List.mem_singleton.mp hevent]
            exact id
  · refine ⟨hblames.serviceBreaker fun himpact => ?_, nofun⟩
    split at himpact
    · nomatch himpact
    · obtain ⟨n, -, hsaw, hnone⟩ := h.failed c hend himpact
      exact ⟨n, hsaw.failedRemotely himpact, hnone⟩
  · exact ⟨hblames.serviceBreaker nofun, nofun⟩
  · exact ⟨hblames.serviceBreaker nofun, nofun⟩

theorem execute_blame (hquiet : ∀ n, QuietWorld decodes (world.attempts n)) :
    CallBlame decodes (InvocationTerminal.execute client world) := by
  unfold InvocationTerminal.execute
  split
  · exact ⟨blamesRemote_nil, nofun⟩
  · exact finish_blame ((executeAttempts_loop client world.attempts).blame hquiet)

/-- A foreign response that calls itself remote is of the return type. -/
def QuietCalls (world : World) : Prop :=
  ∀ i ∈ world.callInterceptors, ∀ result r, i.reply result = some (.foreign r) →
    r.wireOrigin = true → world.decodes r.body = some true

theorem call_blame (hcalls : QuietCalls world)
    (hexecute : CallBlame world.decodes (InvocationTerminal.execute client world)) :
    CallBlame world.decodes (Next.run (InvocationTerminal.execute client world)
      InvocationTerminal.idle world.callInterceptors) := by
  obtain ⟨drops, hevents, hdrops⟩ := @Next.run_events _ (InvocationTerminal.execute client world)
    InvocationTerminal.idle world.callInterceptors
  have hside := @Next.run_side _ (InvocationTerminal.execute client world)
    InvocationTerminal.idle world.callInterceptors
  refine ⟨?_, fun response hresponse hwire => ?_⟩
  · rw [hevents]
    refine BlamesRemote.append ?_ (fun event h => Event.isSettlement_of_isDrop (hdrops event h))
      (fun n outcome h => absurd (hdrops _ h) id) fun outcome h himpact => ?_
    · split
      · exact hexecute.blames
      · exact blamesRemote_nil
    · obtain rfl : outcome = .abandoned := hdrops _ h
      nomatch himpact
  · refine @Next.run_ok _ _ _ _ (fun r => r.wireOrigin = true → world.decodes r.body = some true ∨
      OwnAnswer (Next.run (InvocationTerminal.execute client world) InvocationTerminal.idle
        world.callInterceptors).events (Next.run (InvocationTerminal.execute client world)
          InvocationTerminal.idle world.callInterceptors).side r)
      (fun hreach r hr hwire => ?_) (fun _ _ _ => nofun)
      (fun i hi result r hr hwire => Or.inl (hcalls i hi result r hr hwire)) response hresponse hwire
    rw [hevents, hside, if_pos hreach, if_pos hreach]
    refine (hexecute.own r hr hwire).imp_right ?_
    rintro ⟨n, hcompletion, hsent, hnone, hheld⟩
    refine ⟨n, hcompletion, List.mem_append_left _ hsent, fun event hevent => ?_, hheld⟩
    rcases List.mem_append.mp hevent with hevent | hevent
    · exact hnone event hevent
    · exact not_grants_of_isSettlement (Event.isSettlement_of_isDrop (hdrops event hevent)) n

/-- A response's settlement reports no failure, unless it calls itself remote and is not of the
return type; then it says of which attempt. -/
theorem finishResponse_failures {side : TerminalSide} {response : Response} :
    (∀ event ∈ (finishResponse world side response).1,
      (∀ m outcome, event = .endpointBreaker m outcome → outcome.impact ≠ .failure) ∧
        ∀ outcome, event = .serviceBreaker outcome → outcome.impact ≠ .failure) ∨
    response.wireOrigin = true ∧ world.decodes response.body ≠ some true ∧
      (∀ m outcome, .endpointBreaker m outcome ∈ (finishResponse world side response).1 →
        outcome.impact = .failure → side.heldEndpoint = some m) ∧
      ∀ n, response.attemptCompletion = some n →
        .undecodable n ∈ (finishResponse world side response).1 := by
  have hpermits : ∀ {e s}, ∀ event ∈ finishPermits e s .success,
      (∀ m outcome, event = .endpointBreaker m outcome → outcome.impact ≠ .failure) ∧
        ∀ outcome, event = .serviceBreaker outcome → outcome.impact ≠ .failure := by
    intro e s event h
    rcases mem_finishPermits h with ⟨n, -, rfl⟩ | ⟨-, rfl⟩
    · exact ⟨fun m outcome h => by cases h; exact nofun, nofun⟩
    · exact ⟨nofun, fun outcome h => by cases h; exact nofun⟩
  have hattempt : ∀ {f}, ∀ event ∈ response.finishAttempt f,
      (∀ m outcome, event = .endpointBreaker m outcome → outcome.impact ≠ .failure) ∧
        ∀ outcome, event = .serviceBreaker outcome → outcome.impact ≠ .failure := by
    intro f event h
    obtain ⟨n, rfl⟩ := mem_finishAttempt h
    exact ⟨nofun, nofun⟩
  have hsucceeded : ∀ event ∈ (if response.tracksEndpointBreaker then []
      else succeedEndpointBreaker side.heldEndpoint),
      (∀ m outcome, event = .endpointBreaker m outcome → outcome.impact ≠ .failure) ∧
        ∀ outcome, event = .serviceBreaker outcome → outcome.impact ≠ .failure := by
    intro event h
    split at h
    · nomatch h
    · obtain ⟨n, rfl⟩ := mem_succeedEndpointBreaker h
      exact ⟨fun m outcome h => by cases h; exact nofun, nofun⟩
  by_cases hok : world.decodes response.body = some true
  · refine Or.inl fun event h => ?_
    unfold finishResponse at h
    dsimp only at h
    rw [hok] at h
    rw [List.mem_append, List.mem_append] at h
    exact h.elim (·.elim (hsucceeded event) (hattempt event)) (hpermits event)
  have hevents : ∀ event, event ∈ (finishResponse world side response).1 ↔
      event ∈ (if response.tracksEndpointBreaker then []
        else succeedEndpointBreaker side.heldEndpoint) ∨
      event ∈ finishResultFailure response
        (if response.tracksEndpointBreaker then side.heldEndpoint else none) := by
    intro event
    unfold finishResponse
    dsimp only
    split
    · rename_i h
      exact absurd h hok
    · exact List.mem_append
    · exact List.mem_append
  unfold finishResultFailure at hevents
  by_cases hwire : response.wireOrigin = true
  · refine Or.inr ⟨hwire, hok, fun m outcome h himpact => ?_, fun n hn => ?_⟩
    · rw [hevents, if_pos hwire, List.mem_append, List.mem_append] at h
      rcases h with h | (h | h) | h
      · exact absurd himpact ((hsucceeded _ h).1 m outcome rfl)
      · obtain ⟨n, -, h⟩ := List.mem_map.mp h
        nomatch h
      · exact absurd himpact ((hattempt _ h).1 m outcome rfl)
      · rcases mem_finishPermits h with ⟨n, hn, h⟩ | ⟨-, h⟩
        · obtain ⟨rfl, -⟩ := Event.endpointBreaker.inj h
          split at hn
          · exact hn
          · nomatch hn
        · nomatch h
    · rw [hevents, if_pos hwire]
      refine Or.inr (List.mem_append_left _ (List.mem_append_left _ ?_))
      rw [hn]
      exact List.mem_singleton_self _
  · refine Or.inl fun event h => ?_
    rw [hevents, if_neg hwire, List.mem_append] at h
    exact h.elim (hsucceeded event) (·.elim (hattempt event) (hpermits event))

/-- The failures of a response's settlement are those of a remote answer. -/
theorem finishResponse_blame {ran : Ran TerminalSide} (h : CallBlame world.decodes ran)
    {response : Response} (hresult : ran.result = some (.ok response)) :
    BlamesRemote (ran.events ++ (finishResponse world ran.side response).1) := by
  have hsettlement := fun event h =>
    @isSettlement_finishResponse world ran.side response event h
  rcases @finishResponse_failures world ran.side response with hcalm | ⟨hwire, hbad, hheld, hstates⟩
  · exact h.blames.append hsettlement
      (fun n outcome hmem himpact => absurd himpact ((hcalm _ hmem).1 n outcome rfl))
      fun outcome hmem himpact => absurd himpact ((hcalm _ hmem).2 outcome rfl)
  · obtain ⟨n, hcompletion, hsent, hnone, hpermit⟩ :=
      (h.own response hresult hwire).resolve_left hbad
    have hfailed : FailedRemotely (ran.events ++ (finishResponse world ran.side response).1) n :=
      ⟨List.mem_append_left _ hsent, Or.inr (List.mem_append_right _ (hstates n hcompletion))⟩
    refine h.blames.append hsettlement (fun m outcome hmem himpact => ?_)
      fun outcome hmem himpact => ⟨n, hfailed, hnone⟩
    rw [hpermit m (hheld m outcome hmem himpact)]
    exact hfailed

/-- **Only remote failures are retried or punished, if local errors are quiet.** -/
theorem blamesRemote_of_quiet (client : Client) (world : World)
    (hquiet : ∀ n, QuietWorld world.decodes (world.attempts n)) (hcalls : QuietCalls world) :
    BlamesRemote (invoke client world).events := by
  have hrefused : ∀ e, BlamesRemote (refused world e).events := fun e => blamesRemote_nil
  unfold invoke
  split
  · exact hrefused _
  split
  · exact hrefused _
  split
  · exact hrefused _
  · exact hrefused _
  split
  · exact hrefused _
  have hcall := call_blame hcalls (@execute_blame world.decodes client world hquiet)
  generalize Next.run (InvocationTerminal.execute client world) InvocationTerminal.idle
    world.callInterceptors = ran at hcall
  unfold finishCall
  have hpermit : ∀ {outcome : PermitOutcome}, outcome.impact ≠ .failure →
      ∀ held : Option Nat, BlamesRemote (ran.events ++
        held.toList.map fun attempt => .endpointBreaker attempt outcome) := by
    intro outcome himpact held
    refine hcall.blames.append (fun event h => ?_) (fun n other h => ?_) fun other h => ?_
    · obtain ⟨n, -, rfl⟩ := List.mem_map.mp h
      rfl
    · obtain ⟨m, -, h⟩ := List.mem_map.mp h
      obtain ⟨rfl, rfl⟩ := Event.endpointBreaker.inj h
      exact fun h => absurd h himpact
    · obtain ⟨m, -, h⟩ := List.mem_map.mp h
      nomatch h
  rcases hresult : ran.result with - | e | response
  · exact @hpermit .abandoned nofun ran.side.heldEndpoint
  · exact @hpermit .success nofun ran.side.heldEndpoint
  · exact finishResponse_blame hcall hresult

end Calls

/-! ## A local error that is blamed on the service -/

/-- The error with which an interceptor gives up on the answer it got. -/
def interceptorTimeout : Error :=
  .framework .deadlineExceeded "stale_answer" "the answer is too old".toList

/-- A first attempt whose answer an interceptor turns into its own error. -/
def interceptorTimeoutCall : World :=
  answeredCall fun n =>
    if n = 1 then { answeredAttempt with interceptors := [.fault interceptorTimeout] }
    else answeredAttempt

def Event.isObservation : Event → Bool
  | .observed _ _ => true
  | _ => false

def Event.isGrant (n : Nat) : Event → Bool
  | .decided m _ decision _ _ _ => m == n && decision == some .retry
  | _ => false

theorem Event.grants_of_isGrant {event : Event} {n : Nat} (h : event.isGrant n = true) :
    event.grants n := by
  cases event with
  | decided m context decision now before after => simpa [Event.isGrant, Event.grants] using h
  | _ => cases h

/-- **An interceptor's timeout is retried**, although nothing failed at the remote side. -/
theorem interceptorTimeout_blamed :
    interceptorTimeout.Built ∧ ¬ BlamesRemote (invoke usersClient interceptorTimeoutCall).events := by
  have hbuilt : Error.local_ .deadlineExceeded "stale_answer".toList
      "the answer is too old".toList = .ok interceptorTimeout := rfl
  refine ⟨.local_ hbuilt, fun h => ?_⟩
  have hgrant : (invoke usersClient interceptorTimeoutCall).events.any (Event.isGrant 1) = true := by
    decide +kernel
  have hnone : (invoke usersClient interceptorTimeoutCall).events.any Event.isObservation = false := by
    decide +kernel
  obtain ⟨event, hevent, hgrants⟩ := List.any_eq_true.mp hgrant
  obtain ⟨-, f, hf, -⟩ := h.retry event hevent 1 (Event.grants_of_isGrant hgrants)
  exact List.any_eq_false.mp hnone (.observed 1 f) hf rfl

/-- A first attempt that the server refuses for the moment, and a second one whose answer an
interceptor turns into a quiet error. -/
def refusedCall : World :=
  answeredCall fun n =>
    if n = 1 then { answeredAttempt with fate := .failed .connect }
    else { answeredAttempt with interceptors := [.fault interceptorPanicked] }

theorem blamesRemote_of_quiet_refused :
    BlamesRemote (invoke usersClient refusedCall).events := by
  have hanswered : ∀ interceptors fate, (∀ e, fate ≠ .unencodable e) →
      (∀ i ∈ interceptors, ∀ result, i.reply result = some (.error interceptorPanicked)) →
      QuietWorld refusedCall.decodes { answeredAttempt with interceptors, fate } := by
    intro interceptors fate hfate hfaults
    refine ⟨fun i hi result e he => ?_, fun i hi result r hr => ?_,
      fun router hrouter => absurd hrouter List.not_mem_nil, fun _ e h => (nomatch h),
      fun e he => absurd he (hfate e)⟩
    · cases (hfaults i hi result).symm.trans he
      exact quiet_fresh (by decide) (by decide)
    · nomatch (hfaults i hi result).symm.trans hr
  refine blamesRemote_of_quiet usersClient refusedCall (fun n => ?_)
    fun i hi => absurd hi List.not_mem_nil
  show QuietWorld _ (if n = 1 then _ else _)
  split
  · exact hanswered [] (.failed .connect) (fun e h => CallFate.noConfusion h)
      fun i hi => absurd hi List.not_mem_nil
  · refine hanswered [.fault interceptorPanicked] answeredAttempt.fate
      (fun e h => CallFate.noConfusion h) fun i hi result => ?_
    rw [List.mem_singleton.mp hi]
    rfl

end Fusen.Invocation
