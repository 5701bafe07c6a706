import Fusen.Server.LifecycleCloses

/-!
# What a running server publishes

The results about all runs of a server, whatever its clients, its registries, the clock and the
accept supervisor do, and in whatever order:

* `lifecycle_advances`: what is published only advances.
* `lifecycle_means`: each state means what its documentation says.
* `connections_supervised`: the connections are bounded and accounted for.
-/

namespace Fusen.Server

open Lib Contract Register Fusen.Runtime

namespace Running

variable {setup : Setup} {s s' : Running}

/-! ## Whether the server was ready -/

/-- The server is or was ready. -/
def Rose (s : Running) : Prop :=
  match s.coordinator with
  | .settingReady | .announcing | .serving | .draining none _ _ => True
  | _ => s.startup = some (.ok ())

/-- The readiness that is published where the coordinator stands. -/
def published : Coordinator → Readiness
  | .accepting | .registering | .preparing _ | .activating .. | .storingReady
  | .draining (some _) _ .storing => .notReady
  | .settingReady | .announcing | .serving | .draining none _ .storing => .ready
  | .draining .. | .failing _ | .storingStopped _ => .draining
  | .settingStopped _ | .completing _ | .finished => .stopped

section

variable {state : ServerState} {readiness : Readiness}
  {startup completion : Option (Except ServerError Unit)} {c : Coordinator}

theorem readiness_eq (h : Published state readiness startup completion c) :
    readiness = published c := by
  cases c with
  | draining startupError fatal stage =>
    cases startupError <;> cases stage <;> exact h.2.1
  | storingStopped | settingStopped => exact h.2.1
  | completing => exact h.2.2.1
  | finished =>
    obtain ⟨_, -, -, hready, -⟩ := h
    exact hready
  | failing => exact h.2.1
  | _ => exact h.2.1

theorem ready_cases (h : published c = .ready) : c = .settingReady ∨ c = .announcing ∨
    c = .serving ∨ ∃ fatal, c = .draining none fatal .storing := by
  cases c with
  | settingReady => exact .inl rfl
  | announcing => exact .inr (.inl rfl)
  | serving => exact .inr (.inr (.inl rfl))
  | draining startupError fatal stage =>
    cases startupError with
    | none =>
      cases stage with
      | storing => exact .inr (.inr (.inr ⟨fatal, rfl⟩))
      | _ => cases h
    | some e => cases stage <;> cases h
  | _ => cases h

end

theorem rose_of_ready (hcells : Published s.state s.readiness s.startup s.completion s.coordinator)
    (hready : s.readiness = .ready) : Rose s := by
  unfold Rose
  rcases ready_cases ((readiness_eq hcells).symm.trans hready) with hc | hc | hc | ⟨fatal, hc⟩ <;>
    rw [hc] <;> trivial

theorem rose_endOfDrain {startupError : Option ServerError} {fatal : Option Text}
    {stage : DrainStage} (h : Rose { s with coordinator := .draining startupError fatal stage })
    (hcells : Published s.state s.readiness s.startup s.completion
      (.draining startupError fatal stage)) (hstage : stage ≠ .storing)
    (result : Except ServerError Unit) :
    Rose { s with coordinator := endOfDrain startupError result } := by
  have hend := published_endOfDrain hcells hstage result
  rcases endOfDrain_cases startupError result with ⟨rfl, heq⟩ | ⟨_, e, rfl, heq, -⟩
  · rw [heq] at hend ⊢
    obtain ⟨⟨-, hstartup⟩ | ⟨-, -, e, hresult⟩, -⟩ := hend
    · exact hstartup
    · cases stage <;> exact hcells.2.2.1
  · rw [heq]
    exact h

theorem rose_of_step (hstep : Step setup s s')
    (hcells : Published s.state s.readiness s.startup s.completion s.coordinator) (h : Rose s) :
    Rose s' := by
  unfold Rose at h
  cases hstep with
  | accepting hc | registering hc | prepared hc | preparationFailed hc | preparedAll hc
  | startupFailed hc | activationTaken hc | activationPending hc | activatedAll hc
  | storingStopped hc | settingStopped hc | completing hc =>
    rw [hc] at h
    exact h
  | storingReady | settingReady | announcing | servingEnds => trivial
  | @drainStores startupError _ hc | @drainBegins startupError _ hc | @gateClosed startupError _ _ hc
  | @commandSent startupError _ hc | @listenerClosed startupError _ hc
  | @listenerLost startupError _ hc | @published startupError _ hc
  | @closesMove startupError _ _ _ _ _ _ _ _ hc | @outcomeReceived startupError _ _ _ _ _ hc =>
    cases startupError with
    | none => trivial
    | some e =>
      rw [hc] at h
      exact h
  | listenerLate hc | workDone hc | workLate hc =>
    rw [hc] at h hcells
    exact rose_endOfDrain h hcells nofun _
  | failing hc =>
    rw [hc] at h hcells
    obtain ⟨-, -, hnone, -⟩ := hcells
    rw [hnone] at h
    cases h
  | _ => exact h

/-- Once up, never again a server that failed to start. -/
theorem rose_later {es : List ServerEvent} (h : Rose ((server setup).run es))
    (later : List ServerEvent) : Rose ((server setup).run (es ++ later)) :=
  stable (I := Rose) published_run (fun _ _ hcells hstep h => rose_of_step hstep hcells h) h later

theorem not_rose_of_failed {e : ServerError}
    (hcells : Published s.state s.readiness s.startup s.completion s.coordinator)
    (h : s.startup = some (.error e)) : ¬ Rose s := by
  intro hrose
  unfold Rose at hrose
  have hnot : s.startup ≠ none ∧ s.startup ≠ some (.ok ()) := by
    rw [h]
    exact ⟨nofun, nofun⟩
  split at hrose
  · rename_i hc
    rw [hc] at hcells
    exact hnot.1 hcells.2.2.1
  · rename_i hc
    rw [hc] at hcells
    exact hnot.1 hcells.2.2.1
  · rename_i hc
    rw [hc] at hcells
    exact hnot.2 hcells.2.2.1
  · rename_i fatal stage hc
    rw [hc] at hcells
    cases stage <;> exact hnot.2 hcells.2.2.1
  · exact hnot.2 hrose

theorem not_rose_of_startupError {e : ServerError} {fatal : Option Text} {stage : DrainStage}
    (hcells : Published s.state s.readiness s.startup s.completion s.coordinator)
    (hc : s.coordinator = .draining (some e) fatal stage) : ¬ Rose s := by
  intro hrose
  unfold Rose at hrose
  rw [hc] at hcells hrose
  have hnone : s.startup = none := by cases stage <;> exact hcells.2.2.1
  rw [hnone] at hrose
  cases hrose

theorem Failed.not_rose (h : Failed s)
    (hcells : Published s.state s.readiness s.startup s.completion s.coordinator) : ¬ Rose s := by
  unfold Failed at h
  split at h
  · rename_i hc
    exact not_rose_of_startupError hcells hc
  · rename_i hc
    intro hrose
    unfold Rose at hrose
    rw [hc] at hcells hrose
    rw [show s.startup = none from hcells.2.2.1] at hrose
    cases hrose
  · obtain ⟨e, he⟩ := h
    exact not_rose_of_failed hcells he

/-- Nothing is left under way that nobody closes. -/
theorem Failed.nonePending (h : Failed s)
    (hcells : Published s.state s.readiness s.startup s.completion s.coordinator)
    (howned : Owned s.handles s.coordinator) : NonePending s.handles := by
  unfold Failed at h
  cases hc : s.coordinator with
  | accepting | registering | preparing | activating =>
    rw [hc] at h hcells
    obtain ⟨e, he⟩ := h
    rw [hcells.2.2.1] at he
    cases he
  | _ =>
    rw [hc] at howned
    exact howned

/-- Before a server is up there are no requests at its gate. -/
def Fresh (s : Running) : Prop := ¬ Rose s → ∀ t ∈ s.admission.threads, t.isOwn = true

theorem fresh_of_step (hstep : Step setup s s')
    (hcells : Published s.state s.readiness s.startup s.completion s.coordinator) (h : Fresh s) :
    Fresh s' := by
  intro hrose'
  have hrose : ¬ Rose s := fun hrose => hrose' (rose_of_step hstep hcells hrose)
  have hown := h hrose
  have hspawn : ∀ kind, (AdmissionGate.start kind).isOwn = true →
      ∀ t ∈ (s.spawnGate setup kind).admission.threads, t.isOwn = true := by
    intro kind hkind t hmem
    rcases List.mem_append.mp hmem with hmem | hmem
    · exact hown t hmem
    · rw [List.mem_singleton.mp hmem]
      exact hkind
  have hact : ∀ i e, ∀ t ∈ (s.stepGate setup i e).admission.threads, t.isOwn = true := by
    intro i e t hmem
    rcases (gate setup.maxConcurrentRequests).step_cases s.admission (.act i e) with
      hs | ⟨kind, hev, -⟩ | ⟨j, e', u, p', u', -, hj, hnext, hs⟩
    · unfold stepGate at hmem
      rw [hs] at hmem
      exact hown t hmem
    · cases hev
    · unfold stepGate at hmem
      rw [hs] at hmem
      rcases (mem_set_iff hj).mp hmem with rfl | ⟨k, -, hk⟩
      · exact AdmissionGate.isOwn_of_next hnext (hown u (List.mem_of_getElem? hj))
      · exact hown t (List.mem_of_getElem? hk)
  cases hstep with
  | request hready => exact absurd (rose_of_ready hcells hready) hrose
  | queued hcall => cases hown _ (List.mem_of_getElem? hcall)
  | call i e => exact hact i e
  | drainBegins => exact hspawn .beginDraining rfl
  | listenerLost => exact hspawn .drained rfl
  | published => exact hspawn .drained rfl
  | gateCloses => exact hact _ _
  | drainedMoves => exact hact _ _
  | workLate => exact hact _ _
  | _ => exact hown

theorem fresh_run (es : List ServerEvent) : Fresh ((server setup).run es) :=
  invariant (I := Fresh) published_run (fun _ _ hmem => by cases hmem)
    (fun _ _ hcells hstep h => fresh_of_step hstep hcells h) es

/-! ## What advances -/

/-- The codes only rise, and what was sent, closed or shut stays so. -/
structure Advances (s s' : Running) : Prop where
  state : s.state.asU8 ≤ s'.state.asU8
  readiness : s.readiness.asU8 ≤ s'.readiness.asU8
  startup : ∀ result, s.startup = some result → s'.startup = some result
  completion : ∀ result, s.completion = some result → s'.completion = some result
  listener : s.transport.listening = false →
    s'.transport.listening = false ∧ s'.transport.tasks.length = s.transport.tasks.length
  gate : GateShut s.admission → GateShut s'.admission

theorem Advances.refl (s : Running) : Advances s s :=
  ⟨Nat.le_refl _, Nat.le_refl _, fun _ h => h, fun _ h => h, fun h => ⟨h, rfl⟩, fun h => h⟩

theorem Advances.trans {s'' : Running} (h : Advances s s') (h' : Advances s' s'') :
    Advances s s'' where
  state := h.state.trans h'.state
  readiness := h.readiness.trans h'.readiness
  startup _ hs := h'.startup _ (h.startup _ hs)
  completion _ hs := h'.completion _ (h.completion _ hs)
  listener hclosed := by
    obtain ⟨hclosed, hlength⟩ := h.listener hclosed
    obtain ⟨hclosed', hlength'⟩ := h'.listener hclosed
    exact ⟨hclosed', hlength'.trans hlength⟩
  gate hshut := h'.gate (h.gate hshut)

section

variable (hstep : Step setup s s')
  (h : Published s.state s.readiness s.startup s.completion s.coordinator)

include hstep h

theorem state_le_of_step : s.state.asU8 ≤ s'.state.asU8 := by
  cases hstep with
  | accepting hc | registering hc | settingReady hc =>
    rw [hc] at h
    simp [h.1, ServerState.asU8]
  | @published startupError _ hc =>
    rw [hc] at h
    cases startupError with
    | none => rcases h.1 with hstate | hstate <;> simp [hstate, ServerState.asU8]
    | some e => rcases h.1 with hstate | hstate <;> simp [hstate, ServerState.asU8]
  | settingStopped => cases hstate : s.state <;> simp [ServerState.asU8]
  | _ => exact Nat.le_refl _

theorem readiness_le_of_step : s.readiness.asU8 ≤ s'.readiness.asU8 := by
  cases hstep with
  | storingReady hc | storingStopped hc =>
    rw [hc] at h
    simp [h.2.1, Readiness.asU8]
  | @drainStores startupError _ hc =>
    rw [hc] at h
    cases startupError with
    | none => simp [h.2.1, Readiness.asU8]
    | some e => simp [h.2.1, Readiness.asU8]
  | _ => exact Nat.le_refl _

theorem startup_of_step {result : Except ServerError Unit} (hs : s.startup = some result) :
    s'.startup = some result := by
  cases hstep with
  | announcing hc | failing hc =>
    rw [hc] at h
    rw [h.2.2.1] at hs
    cases hs
  | _ => exact hs

theorem completion_of_step {result : Except ServerError Unit} (hs : s.completion = some result) :
    s'.completion = some result := by
  cases hstep with
  | completing hc =>
    rw [hc] at h
    rw [h.2.2.2] at hs
    cases hs
  | _ => exact hs

end

theorem advances_of_step (hstep : Step setup s s')
    (hcells : Published s.state s.readiness s.startup s.completion s.coordinator)
    (hinv : s.transport.Inv setup.maxConnections) (hgate : GateRuns setup s) : Advances s s' := by
  exact ⟨state_le_of_step hstep hcells, readiness_le_of_step hstep hcells,
    fun _ => startup_of_step hstep hcells, fun _ => completion_of_step hstep hcells,
    (moves_of_step hstep).not_listening hinv, gateShut_of_step hgate hstep⟩

/-! ## What the states mean -/

/-- What the cells of a server promise whoever reads them. -/
structure Means (setup : Setup) (s : Running) : Prop where
  /-- Nothing is served yet. -/
  notReady : s.readiness = .notReady → ∀ t ∈ s.admission.threads, t.isOwn = true
  /-- Every registration is active, and none is being closed while requests are let in. -/
  ready : s.readiness = .ready ∨ s.state = .ready → AllActive setup s.handles
  admitting : s.readiness = .ready → ∀ h ∈ s.handles, h.close = .idle
  /-- Admission and the listener are closed. -/
  draining : s.state = .draining →
    s.transport.listening = false ∧ GateShut s.admission ∧ s.readiness ≠ .ready
  /-- No registration is closed while the server can be reached, but after a failed startup:
  then no request has come to the gate. -/
  closing : ∀ h ∈ s.handles, h.close ≠ .idle →
    s.transport.listening = false ∧ GateShut s.admission ∨
      Failed s ∧ s.readiness ≠ .ready ∧ ∀ t ∈ s.admission.threads, t.isOwn = true
  /-- A failed startup leaves no activation under way whose close is not asked for. -/
  failed : Failed s → NonePending s.handles
  /-- All the work has its result. -/
  stopped : s.state = .stopped →
    GateShut s.admission ∧ s.readiness = .stopped ∧ s.startup ≠ none

section

variable (hcells : Published s.state s.readiness s.startup s.completion s.coordinator)

include hcells

theorem not_rose_of_notReady (h : s.readiness = .notReady) : ¬ Rose s := by
  have hpublished := (readiness_eq hcells).symm.trans h
  intro hrose
  unfold Rose at hrose
  cases hc : s.coordinator with
  | settingReady | announcing | serving =>
    rw [hc] at hpublished
    cases hpublished
  | draining startupError fatal stage =>
    rw [hc] at hpublished hcells hrose
    cases startupError with
    | none => cases stage <;> cases hpublished
    | some e =>
      cases stage with
      | storing =>
        rw [show s.startup = none from hcells.2.2.1] at hrose
        cases hrose
      | _ => cases hpublished
  | failing | storingStopped | settingStopped | completing | finished =>
    rw [hc] at hpublished
    cases hpublished
  | _ =>
    rw [hc] at hcells hrose
    rw [show s.startup = none from hcells.2.2.1] at hrose
    cases hrose

theorem isEarly_of_ready (h : s.readiness = .ready) : isEarly s.coordinator = true := by
  rcases ready_cases ((readiness_eq hcells).symm.trans h) with hc | hc | hc | ⟨fatal, hc⟩ <;>
    rw [hc] <;> rfl

theorem allActive_of_readiness (h : s.readiness = .ready)
    (hactivations : Activations setup s.handles s.startup s.coordinator) :
    AllActive setup s.handles := by
  rcases ready_cases ((readiness_eq hcells).symm.trans h) with hc | hc | hc | ⟨fatal, hc⟩ <;>
    rw [hc] at hactivations <;> exact hactivations

theorem allActive_of_state (h : s.state = .ready)
    (hactivations : Activations setup s.handles s.startup s.coordinator) :
    AllActive setup s.handles := by
  cases hc : s.coordinator with
  | announcing | serving =>
    rw [hc] at hactivations
    exact hactivations
  | draining startupError fatal stage =>
    rw [hc] at hcells hactivations
    cases startupError with
    | none => exact hactivations
    | some e =>
      rw [h] at hcells
      cases stage with
      | storing => cases hcells.1
      | _ => rcases hcells.1 with hstate | hstate <;> cases hstate
  | storingStopped | settingStopped =>
    rw [hc, h] at hcells
    rw [hc] at hactivations
    obtain ⟨⟨-, hstartup⟩ | ⟨hstate, -⟩, -⟩ := hcells
    · exact hactivations hstartup
    · rcases hstate with hstate | hstate <;> cases hstate
  | failing =>
    rw [hc, h] at hcells
    rcases hcells.1 with hstate | hstate <;> cases hstate
  | completing =>
    rw [hc, h] at hcells
    cases hcells.2.1
  | finished =>
    rw [hc, h] at hcells
    obtain ⟨_, -, hstate, -⟩ := hcells
    cases hstate
  | _ =>
    rw [hc, h] at hcells
    cases hcells.1

theorem not_ready_of_draining (h : s.state = .draining) : s.readiness ≠ .ready := by
  intro hready
  rcases ready_cases ((readiness_eq hcells).symm.trans hready) with hc | hc | hc | ⟨fatal, hc⟩ <;>
    rw [hc, h] at hcells <;> cases hcells.1

theorem stopped_cells (hgated : Gated s.admission s.coordinator) (h : s.state = .stopped) :
    GateShut s.admission ∧ s.readiness = .stopped ∧ s.startup ≠ none := by
  have htold : ∀ {result : Except ServerError Unit},
      s.startup = some (.ok ()) ∨ Told s.startup result → s.startup ≠ none := by
    rintro _ (hstartup | ⟨hstartup, -⟩) hnone
    all_goals
      rw [hnone] at hstartup
      cases hstartup
  cases hc : s.coordinator with
  | completing =>
    rw [hc] at hcells hgated
    obtain ⟨hstartup, -, hready, -⟩ := hcells
    exact ⟨hgated, hready, htold hstartup⟩
  | finished =>
    rw [hc] at hcells hgated
    obtain ⟨_, hstartup, -, hready, -⟩ := hcells
    exact ⟨hgated, hready, htold hstartup⟩
  | draining startupError fatal stage =>
    rw [hc, h] at hcells
    cases startupError <;> cases stage with
    | storing => cases hcells.1
    | _ => rcases hcells.1 with hstate | hstate <;> cases hstate
  | storingStopped | settingStopped =>
    rw [hc, h] at hcells
    obtain ⟨⟨hstate, -⟩ | ⟨hstate, -⟩, -⟩ := hcells <;> rcases hstate with hstate | hstate <;>
      cases hstate
  | failing =>
    rw [hc, h] at hcells
    rcases hcells.1 with hstate | hstate <;> cases hstate
  | _ =>
    rw [hc, h] at hcells
    cases hcells.1

end

theorem means_of_cells
    (hcells : Published s.state s.readiness s.startup s.completion s.coordinator)
    (hgated : Gated s.admission s.coordinator) (hregistered : Registered setup s)
    (howned : Owned s.handles s.coordinator) (hunclosed : Unclosed s) (hbehind : Behind s)
    (hfresh : Fresh s) : Means setup s where
  notReady h := hfresh (not_rose_of_notReady hcells h)
  ready h := by
    rcases h with h | h
    · exact allActive_of_readiness hcells h hregistered.activations
    · exact allActive_of_state hcells h hregistered.activations
  admitting h := hunclosed (isEarly_of_ready hcells h)
  draining h := ⟨(hbehind.state h).1, (hbehind.state h).2, not_ready_of_draining hcells h⟩
  closing h hmem hclose := (hbehind.close h hmem hclose).imp_right fun hfailed =>
    have hnot := hfailed.not_rose hcells
    ⟨hfailed, fun hready => hnot (rose_of_ready hcells hready), hfresh hnot⟩
  failed hfailed := hfailed.nonePending hcells howned
  stopped h := stopped_cells hcells hgated h

end Running

/-- **What is published only advances.** -/
theorem lifecycle_advances (setup : Setup) (es later : List ServerEvent) :
    Running.Advances ((server setup).run es) ((server setup).run (es ++ later)) :=
  Running.stable (J := fun s => Running.Published s.state s.readiness s.startup s.completion
      s.coordinator ∧ s.transport.Inv setup.maxConnections ∧ Running.GateRuns setup s)
    (fun es => ⟨Running.published_run es, Running.transport_run es, Running.gateRuns es⟩)
    (fun _ _ ⟨hcells, hinv, hgate⟩ hstep h =>
      h.trans (Running.advances_of_step hstep hcells hinv hgate)) (.refl _) later

/-- **The states mean what their documentation says.** -/
theorem lifecycle_means (setup : Setup) (es : List ServerEvent) :
    Running.Means setup ((server setup).run es) :=
  Running.means_of_cells (Running.published_run es) (Running.gated_run es)
    (Running.registered_run es) (Running.owned_run es) (Running.unclosed_run es)
    (Running.behind_run es) (Running.fresh_run es)

/-- What holds of the accept supervisor and its connections. -/
structure Running.Supervised (limit : PermitCount) (t : Transport) : Prop where
  bounded : t.tasks.count .serving ≤ limit.count
  /-- No permit is lost. -/
  returned : (∀ task ∈ t.tasks, task.holds = 0) → t.connections.available = limit.count
  /-- Whoever is told that the listener is closed can rely on it. -/
  acknowledged : t.acknowledged = true → t.listening = false
  /-- An outcome without a timeout has left no connection and no stream. -/
  drained : ∀ fatalError, t.phase = .ended ⟨fatalError, false⟩ →
    t.acknowledged = true ∧ (∀ task ∈ t.tasks, task.isMember = false) ∧ t.streams = 0

/-- **The connections of a server are bounded and accounted for.** -/
theorem connections_supervised (setup : Setup) (es : List ServerEvent) :
    Running.Supervised setup.maxConnections ((server setup).run es).transport := by
  have hinv := @Running.transport_run setup es
  refine ⟨hinv.serving_le, fun hnone => ?_, fun hack => ?_, fun fatalError hphase => ?_⟩
  · have hzero : total TaskState.holds ((server setup).run es).transport.tasks = 0 :=
      List.sum_eq_zero fun n hmem => by
        obtain ⟨task, htask, rfl⟩ := List.mem_map.mp hmem
        exact hnone task htask
    have hsum := hinv.permits
    rw [hzero] at hsum
    exact hsum
  · exact hinv.listening.trans (hinv.closed hack)
  · have hmembers := hinv.drained (by rw [hphase]; rfl)
    rw [List.any_eq_false] at hmembers
    exact ⟨hinv.acknowledged (by rw [hphase]; rfl),
      fun task hmem => Bool.eq_false_iff.mpr (hmembers task hmem), hinv.streams _ hphase⟩

end Fusen.Server
