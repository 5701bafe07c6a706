import Fusen.Server.Coordinator

/-!
# What a step of a running server does

`Running.Step` lists what can happen, by who does it: the parties around the coordinator, then
the coordinator by where it stands.  `Running.step_cases` is the spec lemma of the machine.
-/

namespace Fusen.Server

open Lib Contract Register Fusen.Runtime

/-- What follows a drain: after a failed startup there is an error. -/
theorem endOfDrain_cases (startupError : Option ServerError) (result : Except ServerError Unit) :
    (startupError = none ∧ endOfDrain startupError result = .storingStopped result) ∨
      ∃ startup e, startupError = some startup ∧
        endOfDrain startupError result = .failing (.error e) ∧
        (result = .error e ∨ ∀ e', result = .error e' → e'.kind ≠ .timeout) := by
  cases startupError with
  | none => exact .inl ⟨rfl, rfl⟩
  | some startup =>
    cases result with
    | ok u => exact .inr ⟨startup, startup, rfl, rfl, .inr nofun⟩
    | error e =>
      by_cases hkind : e.kind = .timeout ∨ e.kind = .accept
      · exact .inr ⟨startup, e, rfl, if_pos hkind, .inl rfl⟩
      · refine .inr ⟨startup, startup, rfl, if_neg hkind, .inr ?_⟩
        rintro _ ⟨⟩
        exact fun htimeout => hkind (.inl htimeout)

namespace Running

/-- What can happen to a running server. -/
inductive Step (setup : Setup) (s : Running) : Running → Prop
  | idle : Step setup s s
  -- the supervisor and its tasks
  | supervisor {transport : Transport} {inbox : Inbox}
      (h : s.transport.Step s.inbox transport inbox) :
    Step setup s { s with transport, command := inbox.command, forceCancel := inbox.forceCancel }
  | supervisorDies : Step setup s { s with transport := s.transport.die, command := false }
  | connectionEnds (i : Nat) : Step setup s { s with transport := s.transport.endConnection i }
  | streamStarts (i : Nat) : Step setup s { s with transport := s.transport.startStream i }
  | streamEnds : Step setup s { s with transport := s.transport.endStream }
  -- the requests
  | request (hready : s.readiness = .ready) : Step setup s (s.spawnGate setup .tryEnter)
  | queued {i : Nat} (hcall : s.admission.threads[i]? = some (.finished (.error .overloaded))) :
    Step setup s (s.spawnGate setup .enter)
  | call (i : Nat) (e : AdmissionGate.Action) (hown : s.ownCall ≠ some i) :
    Step setup s (s.stepGate setup i e)
  -- the users, the clock and the registries
  | shutdown : Step setup s { s with shutdown := true }
  | startupElapses : Step setup s { s with startupElapsed := true }
  | drainElapses (hdeadline : s.hasDeadline = true) : Step setup s { s with drainElapsed := true }
  | activationEnds (i : Nat) (r : RegistryResult) :
    Step setup s { s with handles := s.handles.modify i fun h =>
      if h.activation = .pending then { h with activation := .done r } else h }
  | closeEnds (i : Nat) (r : RegistryResult) :
    Step setup s { s with handles := s.handles.modify i fun h =>
      if h.close = .pending then { h with close := .done r } else h }
  -- the startup
  | accepting (h : s.coordinator = .accepting) :
    Step setup s { s with state := .acceptingNotReady, coordinator := .registering }
  | registering (h : s.coordinator = .registering) :
    Step setup s { s with state := .registering, coordinator := .preparing 0 }
  | prepared {n : Nat} {planned : PlannedRegistration} (h : s.coordinator = .preparing n)
      (hn : setup.registrations[n]? = some planned) :
    Step setup s { s with
      handles := s.handles ++ [⟨planned.name, .idle, .idle⟩]
      coordinator := .preparing (n + 1) }
  | preparationFailed {n : Nat} {e : ServerError} (h : s.coordinator = .preparing n) :
    Step setup s { s with coordinator := .activating (.error e) [] [] }
  | preparedAll {n : Nat} (h : s.coordinator = .preparing n)
      (hn : setup.registrations[n]? = none) :
    Step setup s { s with coordinator := .activating (.ok ()) (List.range n) [] }
  /-- The startup fails, perhaps once more activations have begun.  Those that have not ended
  are dropped. -/
  | startupFailed {prepared : Except ServerError Unit} {waiting running started : List Nat}
      {dropped : List Nat} {e : ServerError} {fatal queued : Option Text}
      (h : s.coordinator = .activating prepared waiting running)
      (hdropped : ∀ i ∈ running ++ started,
        i ∈ dropped ∨ (s.requestActivations started).activated i = true) :
    Step setup s { s with
      transport := { s.transport with fatal := queued }
      handles := (s.requestActivations started).requestCloses dropped
      coordinator := .draining (some e) fatal .storing }
  | activationTaken {waiting running : List Nat} {i : Nat}
      (h : s.coordinator = .activating (.ok ()) waiting running)
      (hi : (s.requestActivations (waiting.take (setup.concurrency - running.length))).takeActivation
        i = .ok ()) :
    Step setup s { s with
      handles := (s.requestActivations
        (waiting.take (setup.concurrency - running.length))).handles
      coordinator := .activating (.ok ()) (waiting.drop (setup.concurrency - running.length))
        ((running ++ waiting.take (setup.concurrency - running.length)).erase i) }
  | activationPending {waiting running : List Nat}
      (h : s.coordinator = .activating (.ok ()) waiting running) :
    Step setup s { s with
      handles := (s.requestActivations
        (waiting.take (setup.concurrency - running.length))).handles
      coordinator := .activating (.ok ()) (waiting.drop (setup.concurrency - running.length))
        (running ++ waiting.take (setup.concurrency - running.length)) }
  | activatedAll (h : s.coordinator = .activating (.ok ()) [] []) :
    Step setup s { s with coordinator := .storingReady }
  | storingReady (h : s.coordinator = .storingReady) :
    Step setup s { s with readiness := .ready, coordinator := .settingReady }
  | settingReady (h : s.coordinator = .settingReady) :
    Step setup s { s with state := .ready, coordinator := .announcing }
  | announcing (h : s.coordinator = .announcing) :
    Step setup s { s with startup := some (.ok ()), coordinator := .serving }
  | servingEnds {fatal queued : Option Text} (h : s.coordinator = .serving) :
    Step setup s { s with
      transport := { s.transport with fatal := queued }
      coordinator := .draining none fatal .storing }
  -- the drain
  | drainStores {startupError : Option ServerError} {fatal : Option Text}
      (h : s.coordinator = .draining startupError fatal .storing) :
    Step setup s { s with
      readiness := .draining, coordinator := .draining startupError fatal .beginning }
  | drainBegins {startupError : Option ServerError} {fatal : Option Text}
      (h : s.coordinator = .draining startupError fatal .beginning) :
    Step setup s { s.spawnGate setup .beginDraining with
      coordinator := .draining startupError fatal (.closing s.admission.threads.length) }
  | gateCloses {startupError : Option ServerError} {fatal : Option Text} {call : Nat}
      (h : s.coordinator = .draining startupError fatal (.closing call)) :
    Step setup s (s.stepGate setup call .run)
  | gateClosed {startupError : Option ServerError} {fatal : Option Text} {call : Nat}
      (h : s.coordinator = .draining startupError fatal (.closing call))
      (hreturned : s.returned call = true) :
    Step setup s { s with coordinator := .draining startupError fatal .sending }
  | commandSent {startupError : Option ServerError} {fatal : Option Text}
      (h : s.coordinator = .draining startupError fatal .sending) :
    Step setup s { s with
      command := true, coordinator := .draining startupError fatal .listener }
  | listenerClosed {startupError : Option ServerError} {fatal : Option Text}
      (h : s.coordinator = .draining startupError fatal .listener)
      (hclosed : s.transport.listenerClosed = some true) :
    Step setup s { s with coordinator := .draining startupError fatal .publishing }
  | listenerLost {startupError : Option ServerError} {fatal : Option Text}
      (h : s.coordinator = .draining startupError fatal .listener)
      (hclosed : s.transport.listenerClosed = some false) :
    Step setup s { s.spawnGate setup .drained with
      coordinator := .draining startupError fatal (.working
        (publishDrainingAfterListenerClosed false)
        (.batches ((List.range s.handles.length).reverse.toChunks setup.concurrency)
          ⟨false, none⟩) s.admission.threads.length none) }
  | listenerLate {startupError : Option ServerError} {fatal : Option Text}
      (h : s.coordinator = .draining startupError fatal .listener) :
    Step setup s { s with
      forceCancel := true
      coordinator := endOfDrain startupError (.error deadlineElapsed) }
  | published {startupError : Option ServerError} {fatal : Option Text}
      (h : s.coordinator = .draining startupError fatal .publishing) :
    Step setup s { s.spawnGate setup .drained with
      state := .draining
      coordinator := .draining startupError fatal (.working
        (publishDrainingAfterListenerClosed true)
        (.batches ((List.range s.handles.length).reverse.toChunks setup.concurrency)
          ⟨false, none⟩) s.admission.threads.length none) }
  | closesMove {startupError : Option ServerError} {fatal : Option Text}
      {listenerError : Option ServerError} {closes closes' : Closes} {call : Nat}
      {accept : Option (Option AcceptOutcome)} {handles : List Handle} {wake : Wake}
      (h : s.coordinator = .draining startupError fatal (.working listenerError closes call accept))
      (hcloses : s.pollCloses wake closes = some (handles, closes')) :
    Step setup s { s with
      handles
      coordinator := .draining startupError fatal (.working listenerError closes' call accept) }
  | drainedMoves {startupError : Option ServerError} {fatal : Option Text}
      {listenerError : Option ServerError} {closes : Closes} {call : Nat}
      {accept : Option (Option AcceptOutcome)}
      (h : s.coordinator = .draining startupError fatal (.working listenerError closes call accept)) :
    Step setup s (s.stepGate setup call .run)
  | outcomeReceived {startupError : Option ServerError} {fatal : Option Text}
      {listenerError : Option ServerError} {closes : Closes} {call : Nat}
      {outcome : Option AcceptOutcome}
      (h : s.coordinator = .draining startupError fatal (.working listenerError closes call none))
      (houtcome : s.transport.completion = some outcome) :
    Step setup s { s with
      coordinator := .draining startupError fatal
        (.working listenerError closes call (some outcome)) }
  | workDone {startupError : Option ServerError} {fatal : Option Text}
      {listenerError : Option ServerError} {registry : CloseOutcome} {call : Nat}
      {outcome : Option AcceptOutcome}
      (h : s.coordinator = .draining startupError fatal
        (.working listenerError (.done registry) call (some outcome)))
      (hreturned : s.returned call = true) :
    Step setup s { s with
      coordinator := endOfDrain startupError
        (resolveShutdownResult registry (acceptCompletion outcome) fatal listenerError) }
  | workLate {startupError : Option ServerError} {fatal : Option Text}
      {listenerError : Option ServerError} {closes : Closes} {call : Nat}
      {accept : Option (Option AcceptOutcome)}
      (h : s.coordinator = .draining startupError fatal (.working listenerError closes call accept)) :
    Step setup s { s.stepGate setup call .cancel with
      forceCancel := true
      coordinator := endOfDrain startupError (.error deadlineElapsed) }
  -- the end
  | failing {result : Except ServerError Unit} (h : s.coordinator = .failing result) :
    Step setup s { s with startup := some result, coordinator := .storingStopped result }
  | storingStopped {result : Except ServerError Unit} (h : s.coordinator = .storingStopped result) :
    Step setup s { s with readiness := .stopped, coordinator := .settingStopped result }
  | settingStopped {result : Except ServerError Unit} (h : s.coordinator = .settingStopped result) :
    Step setup s { s with state := .stopped, coordinator := .completing result }
  | completing {result : Except ServerError Unit} (h : s.coordinator = .completing result) :
    Step setup s { s with completion := some result, coordinator := .finished }

section

variable {setup : Setup} {s : Running} {wake : Wake}

theorem step_prepare {n : Nat} (h : s.coordinator = .preparing n) :
    Step setup s (s.prepare setup n) := by
  unfold prepare
  cases hn : setup.registrations[n]? with
  | none => exact .preparedAll h hn
  | some planned =>
    dsimp only
    cases planned.preparation with
    | handle => exact .prepared h hn
    | rejected e => exact .preparationFailed h
    | panicked => exact .preparationFailed h

theorem step_activate {waiting running : List Nat}
    (h : s.coordinator = .activating (.ok ()) waiting running) :
    Step setup s (s.activate setup waiting running wake) := by
  unfold activate
  dsimp only
  generalize hnext : (s.requestActivations
    (waiting.take (setup.concurrency - running.length))).nextActivation _ wake = next
  cases next with
  | some i =>
    dsimp only
    cases hi : (s.requestActivations
      (waiting.take (setup.concurrency - running.length))).takeActivation i with
    | ok u => exact .activationTaken h hi
    | error e =>
      refine .startupFailed h fun j hj => ?_
      split
      · rename_i hended
        by_cases hji : j = i
        · exact .inr (hji ▸ hended)
        · exact .inl ((List.mem_erase_of_ne hji).mpr hj)
      · exact .inl hj
  | none =>
    dsimp only
    by_cases hdone : waiting.drop (setup.concurrency - running.length) = [] ∧
        running ++ waiting.take (setup.concurrency - running.length) = []
    · rw [if_pos hdone]
      obtain ⟨hdrop, happend⟩ := hdone
      obtain ⟨rfl, htake⟩ := List.append_eq_nil_iff.mp happend
      obtain rfl : waiting = [] := by
        rw [← List.take_append_drop (setup.concurrency - List.length []) waiting, htake, hdrop]
        rfl
      rw [htake]
      exact .activatedAll h
    · rw [if_neg hdone]
      split
      · exact .startupFailed h fun _ => .inl
      · exact .activationPending h

theorem step_startUp {prepared : Except ServerError Unit} {waiting running : List Nat}
    (h : s.coordinator = .activating prepared waiting running) :
    Step setup s (s.startUp setup prepared waiting running wake) := by
  have hfail : ∀ e fatal queued, Step setup s { s with
      transport := { s.transport with fatal := queued }
      handles := s.requestCloses running
      coordinator := .draining (some e) fatal .storing } := by
    intro e fatal queued
    refine @Step.startupFailed setup s prepared waiting running [] running e fatal queued h ?_
    rw [List.append_nil]
    exact fun _ => .inl
  unfold startUp
  split
  · exact hfail _ _ s.transport.fatal
  · split
    · exact hfail _ _ none
    · cases prepared with
      | error e => exact hfail _ _ s.transport.fatal
      | ok u => exact step_activate h

theorem step_work {startupError : Option ServerError} {fatal : Option Text}
    {listenerError : Option ServerError} {closes : Closes} {call : Nat}
    {accept : Option (Option AcceptOutcome)}
    (h : s.coordinator = .draining startupError fatal (.working listenerError closes call accept)) :
    Step setup s (s.work setup startupError fatal listenerError closes call accept wake) := by
  have hlate : Step setup s (if s.drainElapsed then { s.stepGate setup call .cancel with
      forceCancel := true
      coordinator := endOfDrain startupError (.error deadlineElapsed) } else s) := by
    split
    · exact .workLate h
    · exact .idle
  unfold work
  cases hcloses : s.pollCloses wake closes with
  | some moved => exact .closesMove h hcloses
  | none =>
    dsimp only
    split
    · exact .drainedMoves h
    · cases accept with
      | none =>
        cases houtcome : s.transport.completion with
        | some outcome => exact .outcomeReceived h houtcome
        | none =>
          dsimp only
          split
          · rename_i hnone
            cases hnone
          · exact hlate
      | some outcome =>
        dsimp only
        split
        · rename_i registry outcome' hreturned hsome
          cases hsome
          exact .workDone h hreturned
        · exact hlate

theorem step_drain {startupError : Option ServerError} {fatal : Option Text} {stage : DrainStage}
    (h : s.coordinator = .draining startupError fatal stage) :
    Step setup s (s.drain setup startupError fatal wake stage) := by
  cases stage with
  | storing => exact .drainStores h
  | beginning => exact .drainBegins h
  | closing call =>
    unfold drain
    dsimp only
    split
    · rename_i hreturned
      exact .gateClosed h hreturned
    · exact .gateCloses h
  | sending => exact .commandSent h
  | listener =>
    unfold drain
    dsimp only
    split
    · rename_i hclosed
      exact .listenerClosed h hclosed
    · rename_i hclosed
      exact .listenerLost h hclosed
    · split
      · exact .listenerLate h
      · exact .idle
  | publishing => exact .published h
  | working listenerError closes call accept => exact step_work h

theorem step_poll : Step setup s (s.poll setup wake) := by
  unfold poll
  cases h : s.coordinator with
  | accepting => exact .accepting h
  | registering => exact .registering h
  | preparing n => exact step_prepare h
  | activating prepared waiting running => exact step_startUp h
  | storingReady => exact .storingReady h
  | settingReady => exact .settingReady h
  | announcing => exact .announcing h
  | serving =>
    have hends : ∀ fatal queued, Step setup s { s with
        transport := { s.transport with fatal := queued }
        coordinator := .draining none fatal .storing } := fun _ _ => .servingEnds h
    dsimp only
    split
    · exact hends none s.transport.fatal
    · split
      · exact hends _ none
      · exact .idle
  | draining startupError fatal stage => exact step_drain h
  | failing result => exact .failing h
  | storingStopped result => exact .storingStopped h
  | settingStopped result => exact .settingStopped h
  | completing result => exact .completing h
  | finished => exact .idle

/-- **Every event does one of these.** -/
theorem step_cases (setup : Setup) (s : Running) (e : ServerEvent) :
    Step setup s (s.step setup e) := by
  cases e with
  | coordinator wake => exact step_poll
  | transport wake => exact .supervisor Transport.poll_cases
  | transportDies => exact .supervisorDies
  | connectionEnds i => exact .connectionEnds i
  | streamStarts i => exact .streamStarts i
  | streamEnds => exact .streamEnds
  | request =>
    unfold step
    dsimp only
    split
    · rename_i hready
      exact .request hready
    · exact .idle
  | queued i =>
    unfold step
    dsimp only
    split
    · rename_i hcall
      exact .queued hcall
    · exact .idle
  | call i e =>
    unfold step
    dsimp only
    split
    · exact .idle
    · rename_i hown
      exact .call i e hown
  | shutdown => exact .shutdown
  | startupElapses => exact .startupElapses
  | deadlineElapses =>
    unfold step
    dsimp only
    split
    · rename_i hdeadline
      exact .drainElapses hdeadline
    · exact .idle
  | activationEnds i r => exact .activationEnds i r
  | closeEnds i r => exact .closeEnds i r

end

end Running

end Fusen.Server
