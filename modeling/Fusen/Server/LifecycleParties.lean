import Fusen.Runtime.Draining
import Fusen.Server.CoordinatorSteps

/-!
# What the parties of a running server keep

The gate and the supervisor keep their own invariants whatever the rest does, and the cells
that others read follow the coordinator (`published_run`).  The coordinator's two calls at the
gate are safe: once `begin_draining` has returned nobody passes the gate (`barred_run`), and
once `drained` has returned nobody is behind it (`awaited_run`).
-/

namespace Fusen.Server

open Lib Contract Register Fusen.Runtime

namespace Running

variable {setup : Setup}

/-- The rule for invariants, by what a step can do. -/
theorem invariant {J I : Running → Prop} (hJ : ∀ es, J ((server setup).run es))
    (hinit : I (.new setup)) (hstep : ∀ s s', J s → Step setup s s' → I s → I s')
    (es : List ServerEvent) : I ((server setup).run es) :=
  (server setup).invariant_next_to hJ hinit
    (fun s e hj hi => hstep s _ hj (step_cases setup s e) hi) es

/-- The same for what stays once it holds. -/
theorem stable {J I : Running → Prop} (hJ : ∀ es, J ((server setup).run es))
    (hstep : ∀ s s', J s → Step setup s s' → I s → I s') {es : List ServerEvent}
    (h : I ((server setup).run es)) (later : List ServerEvent) :
    I ((server setup).run (es ++ later)) :=
  (server setup).stable hJ (fun s e hj hi => hstep s _ hj (step_cases setup s e) hi) h later

/-! ## The gate -/

theorem gateMoves_of_step {s s' : Running} (hstep : Step setup s s') :
    GateMoves setup.maxConcurrentRequests s.admission s'.admission := by
  cases hstep with
  | request => exact .inr ⟨.spawn .tryEnter, rfl⟩
  | queued => exact .inr ⟨.spawn .enter, rfl⟩
  | call i e => exact .inr ⟨.act i e, rfl⟩
  | drainBegins => exact .inr ⟨.spawn .beginDraining, rfl⟩
  | @gateCloses _ _ call => exact .inr ⟨.act call .run, rfl⟩
  | listenerLost => exact .inr ⟨.spawn .drained, rfl⟩
  | published => exact .inr ⟨.spawn .drained, rfl⟩
  | @drainedMoves _ _ _ _ call => exact .inr ⟨.act call .run, rfl⟩
  | @workLate _ _ _ _ call => exact .inr ⟨.act call .cancel, rfl⟩
  | _ => exact .inl rfl

/-- The gate of a server runs as a gate alone does. -/
def GateRuns (setup : Setup) (s : Running) : Prop := GateRun setup.maxConcurrentRequests s.admission

theorem gateRuns (es : List ServerEvent) : GateRuns setup ((server setup).run es) :=
  invariant (J := fun _ => True) (fun _ => trivial) ⟨[], rfl⟩
    (fun _ _ _ hstep h => h.moves (gateMoves_of_step hstep)) es

theorem gateShut_of_step {s s' : Running} (hgate : GateRuns setup s) (hstep : Step setup s s')
    (h : GateShut s.admission) : GateShut s'.admission :=
  hgate.shut (gateMoves_of_step hstep) h

theorem gateEmpty_of_step {s s' : Running} (hgate : GateRuns setup s) (hstep : Step setup s s')
    (h : GateEmpty s.admission) : GateEmpty s'.admission :=
  hgate.empty (gateMoves_of_step hstep) h

/-! ## The calls of the coordinator -/

/-- What the coordinator knows of the gate where it stands. -/
def Gated (p : Pool AdmissionGate AdmissionGate.Call) : Coordinator → Prop
  | .draining _ _ (.closing call) => AdmissionGate.Makes AdmissionGate.Call.closes call p
  | .draining _ _ (.working _ _ call _) => GateShut p ∧ Draining call p
  | .draining _ _ .sending | .draining _ _ .listener | .draining _ _ .publishing | .failing _
  | .storingStopped _ | .settingStopped _ | .completing _ | .finished => GateShut p
  | _ => True

theorem gated_endOfDrain {p : Pool AdmissionGate AdmissionGate.Call} (h : GateShut p)
    (startupError : Option ServerError) (result : Except ServerError Unit) :
    Gated p (endOfDrain startupError result) := by
  rcases endOfDrain_cases startupError result with ⟨-, heq⟩ | ⟨_, e, -, heq, -⟩
  · rw [heq]
    exact h
  · rw [heq]
    exact h

theorem returned_of {s : Running} {call : Nat} (h : s.returned call = true) :
    Returned call s.admission := by
  unfold returned at h
  split at h
  · rename_i outcome hcall
    exact ⟨outcome, hcall⟩
  · cases h

/-- A step at the gate that is not the coordinator's own. -/
theorem gated_of_other {s : Running} {ev : Event AdmissionGate.Kind AdmissionGate.Action}
    (hgate : GateRuns setup s)
    (hown : ∀ i e, ev = .act i e → s.ownCall ≠ some i ∨ e = .run) (h : Gated s.admission s.coordinator) :
    Gated ((gate setup.maxConcurrentRequests).step s.admission ev) s.coordinator := by
  have hshut : GateShut s.admission →
      GateShut ((gate setup.maxConcurrentRequests).step s.admission ev) :=
    hgate.shut (.inr ⟨ev, rfl⟩)
  have hown' : ∀ k, s.ownCall = some k → ∀ e, ev = .act k e → e = .run := by
    intro k hk e hev
    exact (hown k e hev).resolve_left fun hne => hne hk
  unfold ownCall at hown'
  cases hc : s.coordinator with
  | draining startupError fatal stage =>
    rw [hc] at h hown'
    cases stage with
    | closing call =>
      exact AdmissionGate.makes_step (fun _ _ _ _ => AdmissionGate.closes_of_next) h
        (hown' call rfl)
    | working listenerError closes call accept =>
      exact ⟨hshut h.1, hgate.draining_step h.2 (hown' call rfl)⟩
    | sending | listener | publishing => exact hshut h
    | storing | beginning => trivial
  | failing | storingStopped | settingStopped | completing | finished =>
    rw [hc] at h
    exact hshut h
  | _ => trivial

theorem gated_of_step {s s' : Running} (hgate : GateRuns setup s) (hstep : Step setup s s')
    (h : Gated s.admission s.coordinator) : Gated s'.admission s'.coordinator := by
  cases hstep with
  | request => exact gated_of_other hgate (fun _ _ hev => by cases hev) h
  | queued => exact gated_of_other hgate (fun _ _ hev => by cases hev) h
  | call i e hown =>
    refine gated_of_other hgate (fun j e' hev => ?_) h
    cases hev
    exact .inl hown
  | gateCloses | drainedMoves =>
    refine gated_of_other hgate (fun j e' hev => ?_) h
    cases hev
    exact .inr rfl
  | drainBegins => exact AdmissionGate.makes_new _ rfl
  | gateClosed hc hreturned =>
    rw [hc] at h
    exact hgate.shut_of_returned h (returned_of hreturned)
  | commandSent hc | listenerClosed hc =>
    rw [hc] at h
    exact h
  | listenerLost hc | published hc =>
    rw [hc] at h
    exact ⟨hgate.shut (.inr ⟨.spawn .drained, rfl⟩) h, hgate.draining_new h⟩
  | listenerLate hc =>
    rw [hc] at h
    exact gated_endOfDrain h _ _
  | closesMove hc | outcomeReceived hc =>
    rw [hc] at h
    exact h
  | workDone hc =>
    rw [hc] at h
    exact gated_endOfDrain h.1 _ _
  | workLate hc =>
    have hshut : GateShut s.admission := by
      rw [hc] at h
      exact h.1
    exact gated_endOfDrain (gateShut_of_step hgate (.workLate hc) hshut) _ _
  | failing hc | storingStopped hc | settingStopped hc | completing hc =>
    rw [hc] at h
    exact h
  | accepting | registering | prepared | preparationFailed | preparedAll | startupFailed
  | activationTaken | activationPending | activatedAll | storingReady | settingReady | announcing
  | servingEnds | drainStores => trivial
  | _ => exact h

theorem gated_run (es : List ServerEvent) :
    Gated ((server setup).run es).admission ((server setup).run es).coordinator :=
  invariant (I := fun s => Gated s.admission s.coordinator) gateRuns trivial
    (fun _ _ => gated_of_step) es

/-! ## The supervisor -/

/-- What can happen to the supervisor and its tasks. -/
inductive Moves (t : Transport) : Transport → Prop
  | stay : Moves t t
  | poll {inbox inbox' : Inbox} {t' : Transport} (h : t.Step inbox t' inbox') : Moves t t'
  | die : Moves t t.die
  | endConnection (i : Nat) : Moves t (t.endConnection i)
  | startStream (i : Nat) : Moves t (t.startStream i)
  | endStream : Moves t t.endStream
  /-- The coordinator takes what is queued. -/
  | taken (queued : Option Text) : Moves t { t with fatal := queued }

theorem moves_of_step {s s' : Running} (hstep : Step setup s s') :
    Moves s.transport s'.transport := by
  cases hstep with
  | supervisor h => exact .poll h
  | supervisorDies => exact .die
  | connectionEnds i => exact .endConnection i
  | streamStarts i => exact .startStream i
  | streamEnds => exact .endStream
  | startupFailed => exact .taken _
  | servingEnds => exact .taken _
  | _ => exact .stay

section

variable {limit : PermitCount} {t t' : Transport}

theorem Moves.inv (h : Moves t t') (hinv : t.Inv limit) : t'.Inv limit := by
  cases h with
  | stay => exact hinv
  | poll h => exact hinv.step h
  | die => exact hinv.die
  | endConnection i => exact hinv.endConnection i
  | startStream i => exact hinv.startStream i
  | endStream => exact hinv.endStream
  | taken queued =>
    exact hinv.move hinv.listening hinv.closed hinv.drained hinv.streams hinv.acknowledged

theorem Moves.not_listening (h : Moves t t') (hinv : t.Inv limit) (hclosed : t.listening = false) :
    t'.listening = false ∧ t'.tasks.length = t.tasks.length := by
  cases h with
  | stay => exact ⟨hclosed, rfl⟩
  | poll h => exact Transport.closed_of_step hinv h hclosed
  | die =>
    unfold Transport.die
    split
    · exact ⟨hclosed, rfl⟩
    · exact ⟨rfl, List.length_map _⟩
  | endConnection i =>
    unfold Transport.endConnection
    split
    · exact ⟨hclosed, List.length_set⟩
    · exact ⟨hclosed, List.length_set⟩
    · exact ⟨hclosed, rfl⟩
  | startStream i =>
    unfold Transport.startStream
    split <;> exact ⟨hclosed, rfl⟩
  | endStream => exact ⟨hclosed, rfl⟩
  | taken queued => exact ⟨hclosed, rfl⟩

theorem Moves.completion (h : Moves t t') {outcome : Option AcceptOutcome}
    (hdone : t.completion = some outcome) : t'.completion = some outcome := by
  cases h with
  | stay => exact hdone
  | poll h => exact Transport.completion_of_step h hdone
  | die =>
    unfold Transport.die
    split
    · exact hdone
    · rename_i hphase
      unfold Transport.completion at hdone
      split at hdone
      · rename_i hended
        exact absurd hended (hphase _)
      · exact hdone
      · cases hdone
  | endConnection i =>
    unfold Transport.endConnection
    split <;> exact hdone
  | startStream i =>
    unfold Transport.startStream
    split <;> exact hdone
  | endStream => exact hdone
  | taken queued => exact hdone

end

theorem transport_run (es : List ServerEvent) :
    ((server setup).run es).transport.Inv setup.maxConnections :=
  invariant (J := fun _ => True) (I := fun s => s.transport.Inv setup.maxConnections)
    (fun _ => trivial) (.new _) (fun _ _ _ hstep h => (moves_of_step hstep).inv h) es

/-! ## The cells -/

/-- `start` was sent the error that everybody else is sent. -/
def Told (startup : Option (Except ServerError Unit)) (result : Except ServerError Unit) : Prop :=
  startup = some result ∧ ∃ e, result = .error e

/-- The cells that others read, where the coordinator stands: the state, the readiness, and
what `start` and the waiters were sent. -/
def Published (state : ServerState) (readiness : Readiness)
    (startup completion : Option (Except ServerError Unit)) : Coordinator → Prop
  | .accepting =>
    state = .validated ∧ readiness = .notReady ∧ startup = none ∧ completion = none
  | .registering =>
    state = .acceptingNotReady ∧ readiness = .notReady ∧ startup = none ∧ completion = none
  | .preparing _ | .activating .. | .storingReady =>
    state = .registering ∧ readiness = .notReady ∧ startup = none ∧ completion = none
  | .settingReady =>
    state = .registering ∧ readiness = .ready ∧ startup = none ∧ completion = none
  | .announcing => state = .ready ∧ readiness = .ready ∧ startup = none ∧ completion = none
  | .serving => state = .ready ∧ readiness = .ready ∧ startup = some (.ok ()) ∧ completion = none
  | .draining none _ .storing =>
    state = .ready ∧ readiness = .ready ∧ startup = some (.ok ()) ∧ completion = none
  | .draining (some _) _ .storing =>
    state = .registering ∧ readiness = .notReady ∧ startup = none ∧ completion = none
  | .draining none _ _ =>
    (state = .ready ∨ state = .draining) ∧ readiness = .draining ∧ startup = some (.ok ()) ∧
      completion = none
  | .draining (some _) _ _ =>
    (state = .registering ∨ state = .draining) ∧ readiness = .draining ∧ startup = none ∧
      completion = none
  | .failing result =>
    (state = .registering ∨ state = .draining) ∧ readiness = .draining ∧ startup = none ∧
      completion = none ∧ ∃ e, result = .error e
  | .storingStopped result =>
    ((state = .ready ∨ state = .draining) ∧ startup = some (.ok ()) ∨
      (state = .registering ∨ state = .draining) ∧ Told startup result) ∧
      readiness = .draining ∧ completion = none
  | .settingStopped result =>
    ((state = .ready ∨ state = .draining) ∧ startup = some (.ok ()) ∨
      (state = .registering ∨ state = .draining) ∧ Told startup result) ∧
      readiness = .stopped ∧ completion = none
  | .completing result =>
    (startup = some (.ok ()) ∨ Told startup result) ∧ state = .stopped ∧ readiness = .stopped ∧
      completion = none
  | .finished =>
    ∃ result, (startup = some (.ok ()) ∨ Told startup result) ∧ state = .stopped ∧
      readiness = .stopped ∧ completion = some result

section

variable {state : ServerState} {readiness : Readiness}
  {startup completion : Option (Except ServerError Unit)} {startupError : Option ServerError}
  {fatal : Option Text} {stage : DrainStage}

theorem published_endOfDrain
    (h : Published state readiness startup completion (.draining startupError fatal stage))
    (hstage : stage ≠ .storing) (result : Except ServerError Unit) :
    Published state readiness startup completion (endOfDrain startupError result) := by
  unfold Published at h
  rcases endOfDrain_cases startupError result with ⟨rfl, heq⟩ | ⟨_, e, rfl, heq, -⟩
  · rw [heq]
    obtain ⟨hstate, hready, hstartup, hnone⟩ : (state = .ready ∨ state = .draining) ∧
        readiness = .draining ∧ startup = some (.ok ()) ∧ completion = none := by
      cases stage <;> first | exact h | exact absurd rfl hstage
    exact ⟨.inl ⟨hstate, hstartup⟩, hready, hnone⟩
  · rw [heq]
    obtain ⟨hstate, hready, hstartup, hnone⟩ : (state = .registering ∨ state = .draining) ∧
        readiness = .draining ∧ startup = none ∧ completion = none := by
      cases stage <;> first | exact h | exact absurd rfl hstage
    exact ⟨hstate, hready, hstartup, hnone, _, rfl⟩

/-- The stages after the first share their cells. -/
theorem published_stage
    (h : Published state readiness startup completion (.draining startupError fatal stage))
    (fatal' : Option Text) (stage' : DrainStage) (hstage : stage ≠ .storing)
    (hstage' : stage' ≠ .storing) :
    Published state readiness startup completion (.draining startupError fatal' stage') := by
  unfold Published at h ⊢
  cases startupError <;> cases stage <;> cases stage' <;>
    first | exact h | exact absurd rfl hstage | exact absurd rfl hstage'

end

theorem published_of_step {s s' : Running} (hstep : Step setup s s')
    (h : Published s.state s.readiness s.startup s.completion s.coordinator) :
    Published s'.state s'.readiness s'.startup s'.completion s'.coordinator := by
  cases hstep with
  | accepting hc | registering hc | storingReady hc | settingReady hc | announcing hc =>
    rw [hc] at h
    obtain ⟨hstate, hready, hstartup, hnone⟩ := h
    first
      | exact ⟨rfl, hready, hstartup, hnone⟩
      | exact ⟨hstate, rfl, hstartup, hnone⟩
      | exact ⟨hstate, hready, rfl, hnone⟩
  | prepared hc | preparationFailed hc | preparedAll hc | startupFailed hc | activationTaken hc
  | activationPending hc | activatedAll hc | servingEnds hc =>
    rw [hc] at h
    exact h
  | @drainStores startupError _ hc =>
    rw [hc] at h
    cases startupError with
    | none =>
      obtain ⟨hstate, hready, hstartup, hnone⟩ := h
      exact ⟨.inl hstate, rfl, hstartup, hnone⟩
    | some e =>
      obtain ⟨hstate, hready, hstartup, hnone⟩ := h
      exact ⟨.inl hstate, rfl, hstartup, hnone⟩
  | @drainBegins _ fatal hc =>
    rw [hc] at h
    exact published_stage h fatal (.closing _) nofun nofun
  | @gateClosed _ fatal _ hc =>
    rw [hc] at h
    exact published_stage h fatal .sending nofun nofun
  | @commandSent _ fatal hc =>
    rw [hc] at h
    exact published_stage h fatal .listener nofun nofun
  | @listenerClosed _ fatal hc =>
    rw [hc] at h
    exact published_stage h fatal .publishing nofun nofun
  | @listenerLost _ fatal hc =>
    rw [hc] at h
    exact published_stage h fatal (.working ..) nofun nofun
  | @closesMove _ fatal _ _ _ _ _ _ _ hc =>
    rw [hc] at h
    exact published_stage h fatal (.working ..) nofun nofun
  | @outcomeReceived _ fatal _ _ _ _ hc =>
    rw [hc] at h
    exact published_stage h fatal (.working ..) nofun nofun
  | @published startupError _ hc =>
    rw [hc] at h
    cases startupError with
    | none =>
      obtain ⟨-, hready, hstartup, hnone⟩ := h
      exact ⟨.inr rfl, hready, hstartup, hnone⟩
    | some e =>
      obtain ⟨-, hready, hstartup, hnone⟩ := h
      exact ⟨.inr rfl, hready, hstartup, hnone⟩
  | listenerLate hc | workDone hc | workLate hc =>
    rw [hc] at h
    exact published_endOfDrain h nofun _
  | failing hc =>
    rw [hc] at h
    obtain ⟨hstate, hready, -, hnone, e, rfl⟩ := h
    exact ⟨.inr ⟨hstate, rfl, e, rfl⟩, hready, hnone⟩
  | storingStopped hc =>
    rw [hc] at h
    obtain ⟨htold, -, hnone⟩ := h
    exact ⟨htold, rfl, hnone⟩
  | settingStopped hc =>
    rw [hc] at h
    obtain ⟨htold, hready, hnone⟩ := h
    exact ⟨htold.imp And.right And.right, rfl, hready, hnone⟩
  | completing hc =>
    rw [hc] at h
    obtain ⟨htold, hstate, hready, -⟩ := h
    exact ⟨_, htold, hstate, hready, rfl⟩
  | _ => exact h

theorem published_run (es : List ServerEvent) :
    Published ((server setup).run es).state ((server setup).run es).readiness
      ((server setup).run es).startup ((server setup).run es).completion
      ((server setup).run es).coordinator :=
  invariant (J := fun _ => True)
    (I := fun s => Published s.state s.readiness s.startup s.completion s.coordinator)
    (fun _ => trivial) ⟨rfl, rfl, rfl, rfl⟩ (fun _ _ _ => published_of_step) es

end Running

end Fusen.Server
