import Fusen.Server.LifecycleCells

/-!
# How a server ends

The results about all runs of a server that has ended or failed to start:

* `stopped_cleanly`: a shutdown that does not time out has drained everything, for good.
* `start_failed`: a failed start has served nothing and left nothing behind.
-/

namespace Fusen.Server

open Lib Contract Register Fusen.Runtime

namespace Running

variable {setup : Setup} {s s' : Running}

/-! ## The end of a drain -/

/-- The drain was over before its deadline. -/
def InTime (result : Except ServerError Unit) : Prop :=
  ∀ e, result = .error e → e.kind ≠ .timeout

/-- What a drain with this result leaves. -/
structure Settles (s : Running) (result : Except ServerError Unit) : Prop where
  gate : GateEmpty s.admission
  listener : s.transport.listening = false
  closed : ∀ h ∈ s.handles, ∃ r, h.close = .done r ∧ (result = .ok () → r = .ok)
  supervisor : ∃ o, s.transport.completion = some o ∧
    (∀ outcome, o = some outcome → outcome.deadlineExceeded = false) ∧
    (result = .ok () → o = some ⟨none, false⟩)

/-- The result that the coordinator has, if it has one. -/
def resultOf (s : Running) : Option (Except ServerError Unit) :=
  match s.coordinator with
  | .failing result | .storingStopped result | .settingStopped result | .completing result =>
    some result
  | .finished => s.completion
  | _ => none

/-- A result in time is that of a drain which has settled everything. -/
def Settled (s : Running) : Prop := ∀ result, s.resultOf = some result → InTime result →
  Settles s result

theorem Settles.weaken {result : Except ServerError Unit} (h : Settles s result) (e : ServerError) :
    Settles s (.error e) := by
  obtain ⟨o, ho, hexceeded, -⟩ := h.supervisor
  refine ⟨h.gate, h.listener, fun handle hmem => ?_, o, ho, hexceeded, nofun⟩
  obtain ⟨r, hr, -⟩ := h.closed handle hmem
  exact ⟨r, hr, nofun⟩

/-- Steps after the startup keep what is settled. -/
theorem Settles.step {result : Except ServerError Unit} (h : Settles s result)
    (hstep : Step setup s s') (hgate : GateRuns setup s)
    (hinv : s.transport.Inv setup.maxConnections) (hlate : isEarly s.coordinator = false) :
    Settles s' result := by
  have hmoves := moves_of_step hstep
  refine ⟨gateEmpty_of_step hgate hstep h.gate, (hmoves.not_listening hinv h.listener).1, ?_, ?_⟩
  · rcases handles_of_step hstep with ⟨n, planned, hc, -⟩ | hm
    · rw [hc] at hlate
      cases hlate
    · intro handle hmem
      obtain ⟨before, hbefore, hmove⟩ := hm.mem hmem
      obtain ⟨r, hr, hok⟩ := h.closed before hbefore
      exact ⟨r, hmove.close.done hr, hok⟩
  · obtain ⟨o, ho, hexceeded⟩ := h.supervisor
    exact ⟨o, hmoves.completion ho, hexceeded⟩

/-- A result in time has no timeout under it. -/
theorem resolve_inTime {registry : CloseOutcome} {outcome : Option AcceptOutcome}
    {fatal : Option Text} {acknowledged : Bool}
    (h : InTime (resolveShutdownResult registry (acceptCompletion outcome) fatal
      (publishDrainingAfterListenerClosed acknowledged))) :
    registry.timedOut = false ∧ ∀ o, outcome = some o → o.deadlineExceeded = false := by
  have hkind := resolveShutdownResult_kind registry outcome fatal acknowledged
  by_cases htime : registry.timedOut = true ∨ outcome.any AcceptOutcome.deadlineExceeded = true
  · rw [if_pos htime] at hkind
    generalize resolveShutdownResult registry (acceptCompletion outcome) fatal
      (publishDrainingAfterListenerClosed acknowledged) = result at h hkind
    cases result with
    | ok u => cases hkind
    | error e => exact absurd (Except.error.inj hkind) (h e rfl)
  · obtain ⟨hregistry, hexceeded⟩ := not_or.mp htime
    refine ⟨Bool.eq_false_iff.mpr hregistry, ?_⟩
    rintro o rfl
    exact Bool.eq_false_iff.mpr hexceeded

theorem resolve_ok {registry : CloseOutcome} {outcome : Option AcceptOutcome}
    {fatal : Option Text} {acknowledged : Bool}
    (h : resolveShutdownResult registry (acceptCompletion outcome) fatal
      (publishDrainingAfterListenerClosed acknowledged) = .ok ()) :
    registry.firstError = none ∧ outcome = some ⟨none, false⟩ := by
  have hkind := resolveShutdownResult_kind registry outcome fatal acknowledged
  rw [h] at hkind
  split at hkind
  · cases hkind
  · rename_i htime
    split at hkind
    · cases hkind
    · rename_i haccept
      split at hkind
      · cases hkind
      · rename_i hfirst
        simp only [not_or] at htime haccept
        obtain ⟨-, hexceeded⟩ := htime
        obtain ⟨-, herror, -, hsome⟩ := haccept
        refine ⟨Option.not_isSome_iff_eq_none.mp hfirst, ?_⟩
        cases outcome with
        | none => exact absurd rfl hsome
        | some o =>
          obtain ⟨fatalError, exceeded⟩ := o
          obtain rfl : fatalError = none := Option.not_isSome_iff_eq_none.mp herror
          obtain rfl : exceeded = false := Bool.eq_false_iff.mpr hexceeded
          rfl

/-- The drain is over, and in time. -/
theorem settles_of_workDone {startupError : Option ServerError} {fatal : Option Text}
    {listenerError : Option ServerError} {registry : CloseOutcome} {call : Nat}
    {outcome : Option AcceptOutcome}
    (hc : s.coordinator = .draining startupError fatal
      (.working listenerError (.done registry) call (some outcome)))
    (hreturned : s.returned call = true) (hgated : Gated s.admission s.coordinator)
    (hlearned : Learned s.transport s.coordinator) (hclosing : Closing s.handles s.coordinator)
    (htime : InTime (resolveShutdownResult registry (acceptCompletion outcome) fatal
      listenerError)) :
    Settles s (resolveShutdownResult registry (acceptCompletion outcome) fatal listenerError) := by
  rw [hc] at hgated hlearned hclosing
  obtain ⟨hclosed, ⟨acknowledged, rfl⟩, houtcome⟩ := hlearned
  obtain ⟨htimedOut, hexceeded⟩ := resolve_inTime htime
  refine ⟨hgated.2.gateEmpty (returned_of hreturned), hclosed, fun h hmem => ?_, outcome,
    houtcome outcome rfl, hexceeded, fun hok => (resolve_ok hok).2⟩
  obtain ⟨i, hi, rfl⟩ := List.mem_iff_getElem.mp hmem
  rcases hclosing htimedOut i hi with htodo | ⟨h', r, hh', hr, hok⟩
  · cases htodo
  · rw [List.getElem?_eq_getElem hi, Option.some.injEq] at hh'
    exact ⟨r, hh' ▸ hr, fun h => hok (resolve_ok h).1⟩

theorem not_inTime_deadlineElapsed : ¬ InTime (.error deadlineElapsed) :=
  fun h => h deadlineElapsed rfl rfl

/-- What a drain with this result settles, the end of the startup or of the server has too. -/
theorem settles_endOfDrain {startupError : Option ServerError}
    {result final : Except ServerError Unit} (h : InTime result → Settles s result)
    (hs : s.coordinator = endOfDrain startupError result) (hfinal : s.resultOf = some final)
    (htime : InTime final) : Settles s final := by
  unfold resultOf at hfinal
  rcases endOfDrain_cases startupError result with ⟨-, heq⟩ | ⟨_, e, -, heq, hresult⟩
  · rw [hs, heq] at hfinal
    cases hfinal
    exact h htime
  · rw [hs, heq] at hfinal
    cases hfinal
    rcases hresult with rfl | hresult
    · exact h htime
    · exact (h hresult).weaken e

theorem isEarly_of_resultOf {result : Except ServerError Unit} (h : s.resultOf = some result) :
    isEarly s.coordinator = false := by
  unfold resultOf at h
  split at h
  all_goals first
    | rename_i hc
      rw [hc]
      rfl
    | cases h

theorem settled_of_step (hstep : Step setup s s') (hgate : GateRuns setup s)
    (hgated : Gated s.admission s.coordinator) (hinv : s.transport.Inv setup.maxConnections)
    (hlearned : Learned s.transport s.coordinator) (hclosing : Closing s.handles s.coordinator)
    (h : Settled s) : Settled s' := by
  intro final hfinal htime
  have hkeep : s.resultOf = some final → Settles s' final := fun hsome =>
    (h final hsome htime).step hstep hgate hinv (isEarly_of_resultOf hsome)
  cases hstep with
  | accepting | registering | prepared | preparationFailed | preparedAll | startupFailed
  | activationTaken | activationPending | activatedAll | storingReady | settingReady | announcing
  | servingEnds | drainStores | drainBegins | gateClosed | commandSent | listenerClosed
  | listenerLost | published | closesMove | outcomeReceived => cases hfinal
  | workDone hc hreturned =>
    refine settles_endOfDrain (fun htime => ?_) rfl hfinal htime
    have hsettles := settles_of_workDone hc hreturned hgated hlearned hclosing htime
    exact ⟨hsettles.gate, hsettles.listener, hsettles.closed, hsettles.supervisor⟩
  | listenerLate | workLate =>
    exact settles_endOfDrain (fun htime => absurd htime not_inTime_deadlineElapsed) rfl hfinal htime
  | failing hc | storingStopped hc | settingStopped hc | completing hc =>
    refine hkeep ?_
    unfold resultOf
    rw [hc]
    exact hfinal
  | _ => exact hkeep hfinal

theorem settled_run (es : List ServerEvent) : Settled ((server setup).run es) :=
  invariant (I := Settled)
    (J := fun s => GateRuns setup s ∧ Gated s.admission s.coordinator ∧
      s.transport.Inv setup.maxConnections ∧ Learned s.transport s.coordinator ∧
      Closing s.handles s.coordinator)
    (fun es => ⟨gateRuns es, gated_run es, transport_run es, learned_run es, closing_run es⟩)
    (fun _ hnone => by cases hnone)
    (fun _ _ ⟨hgate, hgated, hinv, hlearned, hclosing⟩ hstep h =>
      settled_of_step hstep hgate hgated hinv hlearned hclosing h) es

/-! ## What is left -/

/-- What a shutdown in time has left, and all that comes after. -/
structure Drained (s : Running) (result : Except ServerError Unit) : Prop where
  /-- No request is at work, or about to be let in. -/
  gate : ∀ call ∈ s.admission.threads, call.passed = false
  listener : s.transport.listening = false
  closed : ∀ h ∈ s.handles, ∃ r, h.close = .done r ∧ (result = .ok () → r = .ok)
  /-- No connection and no stream, unless the supervisor was lost. -/
  connections : s.transport.phase ≠ .dead →
    (∀ task ∈ s.transport.tasks, task.isMember = false) ∧ s.transport.streams = 0
  supervisor : result = .ok () → s.transport.phase = .ended ⟨none, false⟩

theorem Settles.drained {result : Except ServerError Unit} (h : Settles s result)
    (hinv : s.transport.Inv setup.maxConnections) : Drained s result := by
  obtain ⟨o, ho, hexceeded, hok⟩ := h.supervisor
  unfold Transport.completion at ho
  refine ⟨fun call hmem => ?_, h.listener, h.closed, fun halive => ?_, fun hresult => ?_⟩
  · obtain ⟨i, hi⟩ := List.mem_iff_getElem?.mp hmem
    exact h.gate.unpassed i trivial call hi
  · split at ho
    · rename_i outcome hphase
      cases ho
      obtain ⟨fatalError, exceeded⟩ := outcome
      obtain rfl : exceeded = false := hexceeded _ rfl
      have hnone := hinv.drained (by rw [hphase]; rfl)
      rw [List.any_eq_false] at hnone
      exact ⟨fun task hmem => Bool.eq_false_iff.mpr (hnone task hmem), hinv.streams _ hphase⟩
    · rename_i hphase
      exact absurd hphase halive
    · cases ho
  · have hnone := hok hresult
    split at ho
    · rename_i outcome hphase
      cases ho
      rw [hphase, Option.some.inj hnone]
    · cases ho
      cases hnone
    · cases ho

/-- The server has not served a request. -/
structure Unserved (s : Running) : Prop where
  readiness : s.readiness ≠ .ready
  gate : ∀ call ∈ s.admission.threads, call.isOwn = true

theorem unserved_of_not_rose (es : List ServerEvent) (h : ¬ Rose ((server setup).run es)) :
    Unserved ((server setup).run es) :=
  ⟨fun hready => h (rose_of_ready (published_run es) hready), fresh_run es h⟩

section

variable (hcells : Published s.state s.readiness s.startup s.completion s.coordinator)

include hcells

theorem resultOf_of_completion {result : Except ServerError Unit}
    (h : s.completion = some result) : s.resultOf = some result := by
  unfold resultOf
  cases hc : s.coordinator with
  | finished => exact h
  | draining startupError fatal stage =>
    rw [hc, h] at hcells
    cases startupError <;> cases stage <;> cases hcells.2.2.2
  | failing | completing =>
    rw [hc, h] at hcells
    first | cases hcells.2.2.2.1 | cases hcells.2.2.2
  | storingStopped | settingStopped =>
    rw [hc, h] at hcells
    cases hcells.2.2
  | _ =>
    rw [hc, h] at hcells
    cases hcells.2.2.2

/-- What `start` was sent is what everybody is. -/
theorem resultOf_of_startup {e : ServerError} (h : s.startup = some (.error e)) :
    s.resultOf = some (.error e) := by
  have htold : ∀ {result : Except ServerError Unit},
      s.startup = some (.ok ()) ∨ Told s.startup result → result = .error e := by
    rintro _ (hstartup | ⟨hstartup, -⟩)
    · rw [h] at hstartup
      cases hstartup
    · exact Option.some.inj (hstartup.symm.trans h)
  unfold resultOf
  cases hc : s.coordinator with
  | finished =>
    rw [hc] at hcells
    obtain ⟨result, hstartup, -, -, hcompletion⟩ := hcells
    exact hcompletion.trans (congrArg some (htold hstartup))
  | completing =>
    rw [hc] at hcells
    exact congrArg some (htold hcells.1)
  | storingStopped | settingStopped =>
    rw [hc] at hcells
    exact congrArg some (htold (hcells.1.imp And.right And.right))
  | draining startupError fatal stage =>
    rw [hc, h] at hcells
    cases startupError <;> cases stage <;> cases hcells.2.2.1
  | _ =>
    rw [hc, h] at hcells
    cases hcells.2.2.1

end

theorem completion_later {es : List ServerEvent} {result : Except ServerError Unit}
    (h : ((server setup).run es).completion = some result) (later : List ServerEvent) :
    ((server setup).run (es ++ later)).completion = some result :=
  stable (I := fun s => s.completion = some result) published_run
    (fun _ _ hcells hstep h => completion_of_step hstep hcells h) h later

theorem startup_later {es : List ServerEvent} {result : Except ServerError Unit}
    (h : ((server setup).run es).startup = some result) (later : List ServerEvent) :
    ((server setup).run (es ++ later)).startup = some result :=
  stable (I := fun s => s.startup = some result) published_run
    (fun _ _ hcells hstep h => startup_of_step hstep hcells h) h later

end Running

/-- **A shutdown that does not time out has drained everything, for good.** -/
theorem stopped_cleanly (setup : Setup) (es later : List ServerEvent)
    {result : Except ServerError Unit} (h : ((server setup).run es).completion = some result)
    (htime : Running.InTime result) : Running.Drained ((server setup).run (es ++ later)) result := by
  have hresult := Running.resultOf_of_completion (Running.published_run _)
    (Running.completion_later h later)
  exact (Running.settled_run _ result hresult htime).drained (Running.transport_run _)

/-- A server with one registration, one connection and one request at a time. -/
def oneRegistration : Setup :=
  ⟨[⟨"nacos".toList, .handle⟩], 1, AdmissionGate.onePermit, AdmissionGate.onePermit, Nat.one_pos⟩

def polls (n : Nat) : List ServerEvent := List.replicate n (.coordinator .poll)

def supervise (n : Nat) : List ServerEvent := List.replicate n (.transport .idle)

/-- The listener and the registration are closed. -/
def closedBehind : List ServerEvent := supervise 3 ++ polls 3 ++ [.closeEnds 0 .ok] ++ polls 4

/-- The server becomes ready and lets a request in, which is at work when the shutdown begins. -/
def servedOne : List ServerEvent :=
  polls 5 ++ [.activationEnds 0 .ok] ++ polls 5 ++ [.request] ++ List.replicate 5 (.call 0 .run) ++
    [.shutdown] ++ polls 8 ++ closedBehind ++ List.replicate 3 (.call 0 .run) ++ polls 3 ++
    supervise 2 ++ polls 5

theorem stopped_cleanly_served :
    Running.Drained ((server oneRegistration).run (servedOne ++ [.request, .shutdown])) (.ok ()) :=
  stopped_cleanly oneRegistration servedOne [.request, .shutdown] (by decide +kernel) nofun

/-- **A failed start has served nothing and left nothing behind.** -/
theorem start_failed (setup : Setup) (before rest later : List ServerEvent) {e : ServerError}
    (h : ((server setup).run (before ++ rest)).startup = some (.error e)) :
    Running.Unserved ((server setup).run before) ∧
      Running.Unserved ((server setup).run (before ++ rest ++ later)) ∧
      (∀ result, ((server setup).run (before ++ rest ++ later)).completion = some result →
        result = .error e) ∧
      (e.kind ≠ .timeout →
        Running.Drained ((server setup).run (before ++ rest ++ later)) (.error e)) := by
  have hlater := Running.startup_later h later
  have hcells := @Running.published_run setup (before ++ rest ++ later)
  have hresult := Running.resultOf_of_startup hcells hlater
  refine ⟨Running.unserved_of_not_rose before fun hrose => ?_,
    Running.unserved_of_not_rose _ (Running.not_rose_of_failed hcells hlater),
    fun result hcompletion => ?_, fun hkind => ?_⟩
  · exact Running.not_rose_of_failed (Running.published_run _) h (Running.rose_later hrose rest)
  · exact Option.some.inj ((Running.resultOf_of_completion hcells hcompletion).symm.trans hresult)
  · refine (Running.settled_run _ _ hresult ?_).drained (Running.transport_run _)
    rintro _ ⟨⟩
    exact hkind

/-- The registration is prepared, and rolled back. -/
theorem start_failed_cancelled :
    Running.Drained ((server oneRegistration).run
      ([.shutdown] ++ (polls 12 ++ closedBehind ++ supervise 2 ++ polls 5) ++ [.request]))
      (.error startupCancelled) :=
  (start_failed oneRegistration [.shutdown] (polls 12 ++ closedBehind ++ supervise 2 ++ polls 5)
    [.request] (by decide +kernel)).2.2.2 (by decide)

end Fusen.Server
