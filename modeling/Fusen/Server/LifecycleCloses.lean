import Fusen.Server.LifecycleHandles

/-!
# The deregistration of a running server

Once a server is up, its registrations are closed only behind a closed listener and a shut gate
(`behind_run`), and what the drain counts as closed is closed (`closing_run`).
-/

namespace Fusen.Server

open Lib Contract Register Fusen.Runtime

namespace Running

variable {setup : Setup} {s s' : Running}

/-! ## Behind a closed listener -/

/-- What the coordinator has learned from the supervisor, where it stands. -/
def Learned (t : Transport) : Coordinator → Prop
  | .draining _ _ .publishing => t.listening = false
  | .draining _ _ (.working listenerError _ _ accept) =>
    t.listening = false ∧
      (∃ acknowledged, listenerError = publishDrainingAfterListenerClosed acknowledged) ∧
      ∀ outcome, accept = some outcome → t.completion = some outcome
  | _ => True

theorem learned_moves {limit : PermitCount} {t t' : Transport} {c : Coordinator}
    (h : Learned t c) (hm : Moves t t') (hinv : t.Inv limit) : Learned t' c := by
  cases c with
  | draining startupError fatal stage =>
    cases stage with
    | publishing => exact (hm.not_listening hinv h).1
    | working listenerError closes call accept =>
      obtain ⟨hclosed, hlistener, haccept⟩ := h
      exact ⟨(hm.not_listening hinv hclosed).1, hlistener,
        fun outcome hsome => hm.completion (haccept outcome hsome)⟩
    | _ => trivial
  | _ => trivial

theorem learned_endOfDrain (t : Transport) (startupError : Option ServerError)
    (result : Except ServerError Unit) : Learned t (endOfDrain startupError result) := by
  rcases endOfDrain_cases startupError result with ⟨-, heq⟩ | ⟨_, e, -, heq, -⟩ <;> rw [heq] <;>
    trivial

theorem learned_of_step (hstep : Step setup s s') (hinv : s.transport.Inv setup.maxConnections)
    (h : Learned s.transport s.coordinator) : Learned s'.transport s'.coordinator := by
  cases hstep with
  | listenerClosed hc hclosed => exact (hinv.not_listening_of_closed hclosed).1
  | listenerLost hc hclosed =>
    exact ⟨(hinv.not_listening_of_closed hclosed).1, ⟨false, rfl⟩, fun _ hnone => by cases hnone⟩
  | published hc =>
    rw [hc] at h
    exact ⟨h, ⟨true, rfl⟩, fun _ hnone => by cases hnone⟩
  | closesMove hc =>
    rw [hc] at h
    exact h
  | outcomeReceived hc houtcome =>
    rw [hc] at h
    obtain ⟨hclosed, hlistener, -⟩ := h
    exact ⟨hclosed, hlistener, fun _ hsome => Option.some.inj hsome ▸ houtcome⟩
  | listenerLate | workDone | workLate => exact learned_endOfDrain _ _ _
  | accepting | registering | prepared | preparationFailed | preparedAll | startupFailed
  | activationTaken | activationPending | activatedAll | storingReady | settingReady | announcing
  | servingEnds | drainStores | drainBegins | gateClosed | commandSent | failing | storingStopped
  | settingStopped | completing => trivial
  | supervisor hsupervisor => exact learned_moves h (.poll hsupervisor) hinv
  | supervisorDies => exact learned_moves h .die hinv
  | connectionEnds i => exact learned_moves h (.endConnection i) hinv
  | streamStarts i => exact learned_moves h (.startStream i) hinv
  | streamEnds => exact learned_moves h .endStream hinv
  | _ => exact h

theorem learned_run (es : List ServerEvent) :
    Learned ((server setup).run es).transport ((server setup).run es).coordinator :=
  invariant (I := fun s => Learned s.transport s.coordinator) transport_run trivial
    (fun _ _ hinv hstep h => learned_of_step hstep hinv h) es

/-- The startup has not failed, and the drain does not work yet. -/
def isEarly : Coordinator → Bool
  | .draining (some _) _ _ | .draining none _ (.working ..) | .failing _ | .storingStopped _
  | .settingStopped _ | .completing _ | .finished => false
  | _ => true

theorem isEarly_endOfDrain (startupError : Option ServerError) (result : Except ServerError Unit) :
    isEarly (endOfDrain startupError result) = false := by
  rcases endOfDrain_cases startupError result with ⟨-, heq⟩ | ⟨_, e, -, heq, -⟩ <;> rw [heq] <;> rfl

theorem isEarly_of_step (hstep : Step setup s s') (h : isEarly s'.coordinator = true) :
    isEarly s.coordinator = true := by
  cases hstep with
  | accepting hc | registering hc | prepared hc | preparationFailed hc | preparedAll hc
  | startupFailed hc | activationTaken hc | activationPending hc | activatedAll hc
  | storingReady hc | settingReady hc | announcing hc | servingEnds hc =>
    rw [hc]
    rfl
  | @drainStores startupError _ hc | @drainBegins startupError _ hc | @gateClosed startupError _ _ hc
  | @commandSent startupError _ hc | @listenerClosed startupError _ hc =>
    cases startupError with
    | none =>
      rw [hc]
      rfl
    | some e => cases h
  | @listenerLost startupError | @published startupError | @closesMove startupError
  | @outcomeReceived startupError => cases startupError <;> cases h
  | failing | storingStopped | settingStopped | completing => cases h
  | listenerLate | workDone | workLate =>
    rw [isEarly_endOfDrain] at h
    cases h
  | _ => exact h

/-- Nobody has asked for a close. -/
theorem not_closing_of_isEarly (h : isEarly s.coordinator = true) :
    s.isWorking = false ∧ s.hasFailed = false := by
  unfold isWorking hasFailed
  cases hc : s.coordinator with
  | draining startupError fatal stage =>
    rw [hc] at h
    cases startupError with
    | none => cases stage <;> first | exact ⟨rfl, rfl⟩ | cases h
    | some e => cases h
  | _ => exact ⟨rfl, rfl⟩

/-- No close is asked for before the startup fails or the drain works. -/
def Unclosed (s : Running) : Prop :=
  isEarly s.coordinator = true → ∀ h ∈ s.handles, h.close = .idle

theorem unclosed_of_step (hstep : Step setup s s') (h : Unclosed s) : Unclosed s' := by
  intro hearly' handle hmem
  have hearly := isEarly_of_step hstep hearly'
  rcases handles_of_step hstep with ⟨n, planned, -, -, -, heq⟩ | hm
  · rw [heq, List.mem_append, List.mem_singleton] at hmem
    rcases hmem with hmem | rfl
    · exact h hearly handle hmem
    · rfl
  · rw [(not_closing_of_isEarly hearly).1, (not_closing_of_isEarly hearly').2] at hm
    obtain ⟨before, hbefore, hmoves⟩ := hm.mem hmem
    exact hmoves.close.idle (h hearly before hbefore)

theorem unclosed_run (es : List ServerEvent) : Unclosed ((server setup).run es) :=
  invariant (J := fun _ => True) (fun _ => trivial) (fun _ _ hmem => by cases hmem)
    (fun _ _ _ => unclosed_of_step) es

/-- The startup has failed. -/
def Failed (s : Running) : Prop :=
  match s.coordinator with
  | .draining (some _) _ _ | .failing _ => True
  | _ => ∃ e, s.startup = some (.error e)

theorem failed_of_hasFailed (h : s.hasFailed = true) : Failed s := by
  unfold hasFailed at h
  unfold Failed
  split at h
  · rename_i hc
    rw [hc]
    trivial
  · cases h

theorem failed_endOfDrain {startupError : Option ServerError} {fatal : Option Text}
    {stage : DrainStage} (h : Failed { s with coordinator := .draining startupError fatal stage })
    (result : Except ServerError Unit) :
    Failed { s with coordinator := endOfDrain startupError result } := by
  rcases endOfDrain_cases startupError result with ⟨rfl, heq⟩ | ⟨_, e, rfl, heq, -⟩
  · rw [heq]
    exact h
  · rw [heq]
    trivial

theorem failed_of_step (hstep : Step setup s s')
    (hcells : Published s.state s.readiness s.startup s.completion s.coordinator) (h : Failed s) :
    Failed s' := by
  unfold Failed at h
  cases hstep with
  | accepting hc | registering hc | prepared hc | preparationFailed hc | preparedAll hc
  | activationTaken hc | activationPending hc | activatedAll hc | storingReady hc | settingReady hc
  | servingEnds hc | storingStopped hc | settingStopped hc | completing hc =>
    rw [hc] at h
    exact h
  | startupFailed => trivial
  | announcing hc =>
    rw [hc] at h hcells
    obtain ⟨e, he⟩ := h
    rw [hcells.2.2.1] at he
    cases he
  | @drainStores startupError _ hc | @drainBegins startupError _ hc | @gateClosed startupError _ _ hc
  | @commandSent startupError _ hc | @listenerClosed startupError _ hc
  | @listenerLost startupError _ hc | @published startupError _ hc
  | @closesMove startupError _ _ _ _ _ _ _ _ hc | @outcomeReceived startupError _ _ _ _ _ hc =>
    cases startupError with
    | none =>
      rw [hc] at h
      exact h
    | some e => trivial
  | listenerLate hc | workDone hc | workLate hc =>
    rw [hc] at h
    exact failed_endOfDrain h _
  | failing hc =>
    rw [hc] at hcells
    obtain ⟨-, -, -, -, e, rfl⟩ := hcells
    exact ⟨e, rfl⟩
  | _ => exact h

/-- `Draining` is published once the listener is closed and the gate is shut, and so is a close
asked for, unless the startup has failed. -/
structure Behind (s : Running) : Prop where
  state : s.state = .draining → s.transport.listening = false ∧ GateShut s.admission
  close : ∀ h ∈ s.handles, h.close ≠ .idle →
    s.transport.listening = false ∧ GateShut s.admission ∨ Failed s

theorem state_of_step (hstep : Step setup s s') (h : s'.state = .draining) :
    s.state = .draining ∨
      ∃ startupError fatal, s.coordinator = .draining startupError fatal .publishing := by
  cases hstep with
  | published hc => exact .inr ⟨_, _, hc⟩
  | accepting | registering | settingReady | settingStopped => cases h
  | _ => exact .inl h

theorem behind_of_step (hstep : Step setup s s')
    (hcells : Published s.state s.readiness s.startup s.completion s.coordinator)
    (hgate : GateRuns setup s) (hgated : Gated s.admission s.coordinator)
    (hinv : s.transport.Inv setup.maxConnections) (hlearned : Learned s.transport s.coordinator)
    (h : Behind s) : Behind s' := by
  have hstays : s.transport.listening = false ∧ GateShut s.admission →
      s'.transport.listening = false ∧ GateShut s'.admission := fun ⟨hclosed, hshut⟩ =>
    ⟨((moves_of_step hstep).not_listening hinv hclosed).1, gateShut_of_step hgate hstep hshut⟩
  constructor
  · intro hstate
    rcases state_of_step hstep hstate with hstate | ⟨startupError, fatal, hc⟩
    · exact hstays (h.state hstate)
    · rw [hc] at hlearned hgated
      exact hstays ⟨hlearned, hgated⟩
  · intro handle hmem hclose
    have hbefore : ∀ before ∈ s.handles, before.close ≠ .idle →
        s'.transport.listening = false ∧ GateShut s'.admission ∨ Failed s' := fun before hmem hne =>
      (h.close before hmem hne).imp hstays (failed_of_step hstep hcells)
    rcases handles_of_step hstep with ⟨n, planned, -, -, -, heq⟩ | hm
    · rw [heq, List.mem_append, List.mem_singleton] at hmem
      rcases hmem with hmem | rfl
      · exact hbefore handle hmem hclose
      · exact absurd rfl hclose
    · obtain ⟨before, hmem', hmoves⟩ := hm.mem hmem
      by_cases hidle : before.close = .idle
      · -- the close was asked for by this step
        cases hclosing : (s.isWorking || s'.hasFailed) with
        | false =>
          rw [hclosing] at hmoves
          exact absurd (hmoves.close.idle hidle) hclose
        | true =>
          rcases Bool.or_eq_true_iff.mp hclosing with hworking | hfailed
          · unfold isWorking at hworking
            split at hworking
            · rename_i hc
              rw [hc] at hlearned hgated
              exact .inl (hstays ⟨hlearned.1, hgated.1⟩)
            · cases hworking
          · exact .inr (failed_of_hasFailed hfailed)
      · exact hbefore before hmem' hidle

theorem behind_run (es : List ServerEvent) : Behind ((server setup).run es) :=
  invariant (I := Behind)
    (J := fun s => Published s.state s.readiness s.startup s.completion s.coordinator ∧
      GateRuns setup s ∧ Gated s.admission s.coordinator ∧
      s.transport.Inv setup.maxConnections ∧ Learned s.transport s.coordinator)
    (fun es => ⟨published_run es, gateRuns es, gated_run es, transport_run es, learned_run es⟩)
    ⟨nofun, fun _ hmem => by cases hmem⟩
    (fun _ _ ⟨hcells, hgate, hgated, hinv, hlearned⟩ hstep h =>
      behind_of_step hstep hcells hgate hgated hinv hlearned h) es

/-! ## The closes -/

/-- What is not to be closed any more is closed, unless a close has timed out; without an error
so far all of these closes have succeeded. -/
def Covered (handles : List Handle) (todo : List Nat) (outcome : CloseOutcome) : Prop :=
  outcome.timedOut = false → ∀ i < handles.length, i ∈ todo ∨
    ∃ h r, handles[i]? = some h ∧ h.close = .done r ∧ (outcome.firstError = none → r = .ok)

/-- What `close_registrations` keeps. -/
def ClosesKept (handles : List Handle) : Closes → Prop
  | .batches rest outcome => Covered handles rest.flatten outcome
  | .batch results rest outcome =>
    Covered handles (results.map Prod.fst ++ rest.flatten) outcome ∧
      ∀ i r, (i, some (some r)) ∈ results → ∃ h, handles[i]? = some h ∧ h.close = .done r
  | .done outcome => Covered handles [] outcome

section

variable {handles handles' : List Handle} {starting closing : Bool}

theorem Covered.moves {todo : List Nat} {outcome : CloseOutcome} (h : Covered handles todo outcome)
    (hm : HandlesMove starting closing handles handles') : Covered handles' todo outcome := by
  intro htime i hi
  rw [hm.length] at hi
  refine (h htime i hi).imp_right ?_
  rintro ⟨handle, r, hhandle, hr, hok⟩
  obtain ⟨handle', hhandle', hmoves⟩ := hm.getElem? hhandle
  exact ⟨handle', r, hhandle', hmoves.close.done hr, hok⟩

theorem ClosesKept.moves {closes : Closes} (h : ClosesKept handles closes)
    (hm : HandlesMove starting closing handles handles') : ClosesKept handles' closes := by
  cases closes with
  | batches rest outcome => exact Covered.moves h hm
  | batch results rest outcome =>
    obtain ⟨hcovered, hresults⟩ := h
    refine ⟨hcovered.moves hm, fun i r hmem => ?_⟩
    obtain ⟨handle, hhandle, hr⟩ := hresults i r hmem
    obtain ⟨handle', hhandle', hmoves⟩ := hm.getElem? hhandle
    exact ⟨handle', hhandle', hmoves.close.done hr⟩
  | done outcome => exact Covered.moves h hm

end

theorem closed_eq_some {i : Nat} {r : RegistryResult} (h : s.closed i = some r) :
    ∃ handle, s.handles[i]? = some handle ∧ handle.close = .done r := by
  unfold closed at h
  split at h
  · rename_i handle hhandle
    split at h
    · rename_i hclose
      cases h
      exact ⟨handle, hhandle, hclose⟩
    · cases h
  · cases h

theorem closeResult_eq_some {wake : Wake} {i : Nat} {r : RegistryResult}
    (h : s.closeResult wake i = some (some r)) :
    ∃ handle, s.handles[i]? = some handle ∧ handle.close = .done r := by
  unfold closeResult at h
  split at h
  · rename_i hclosed
    cases h
    exact closed_eq_some hclosed
  · split at h
    · split at h <;> cases h
    · split at h <;> cases h

/-- The end of a batch. -/
theorem covered_record {results : List (Nat × Option (Option RegistryResult))} {rest : List Nat}
    {outcome : CloseOutcome} {handles : List Handle}
    (h : Covered handles (results.map Prod.fst ++ rest) outcome)
    (hresults : ∀ i r, (i, some (some r)) ∈ results →
      ∃ h, handles[i]? = some h ∧ h.close = .done r)
    (hall : ∀ x ∈ results, x.2.isSome = true) :
    Covered handles rest ((results.filterMap Prod.snd).foldl CloseOutcome.record outcome) := by
  rw [foldl_record]
  intro htime i hi
  simp only [Bool.or_eq_false_iff, List.any_eq_false, List.mem_filterMap] at htime
  obtain ⟨htimedOut, hnone⟩ := htime
  simp only [Option.or_eq_none_iff, List.findSome?_eq_none_iff, List.mem_filterMap]
  rcases h htimedOut i hi with htodo | ⟨handle, r, hhandle, hr, hok⟩
  · rcases List.mem_append.mp htodo with hbatch | hrest
    · obtain ⟨⟨i', x⟩, hx, rfl⟩ := List.mem_map.mp hbatch
      obtain ⟨y, rfl⟩ := Option.isSome_iff_exists.mp (hall _ hx)
      cases y with
      | none => exact absurd rfl (hnone none ⟨_, hx, rfl⟩)
      | some r =>
        obtain ⟨handle, hhandle, hr⟩ := hresults _ _ hx
        refine .inr ⟨handle, r, hhandle, hr, fun ⟨_, herror⟩ => ?_⟩
        have hr := herror (some r) ⟨_, hx, rfl⟩
        cases r with
        | ok => rfl
        | err e => cases hr
    · exact .inl hrest
  · exact .inr ⟨handle, r, hhandle, hr, fun ⟨hfirst, _⟩ => hok hfirst⟩

theorem pollCloses_keeps {wake : Wake} {closes closes' : Closes} {handles : List Handle}
    (h : s.pollCloses wake closes = some (handles, closes')) (hkept : ClosesKept s.handles closes) :
    ClosesKept handles closes' := by
  have hmoves := pollCloses_moves true h
  unfold pollCloses at h
  cases closes with
  | done outcome => cases h
  | batches rest outcome =>
    cases rest with
    | nil =>
      cases h
      exact hkept
    | cons batch rest =>
      dsimp only at h
      split at h
      · cases h
        rintro ⟨⟩
      · cases h
        refine ⟨?_, fun i r hmem => ?_⟩
        · have hbatch : (batch.map fun i => (i, (none : Option (Option RegistryResult)))).map
              Prod.fst = batch := by
            rw [List.map_map]
            exact List.map_id _
          rw [hbatch]
          exact Covered.moves hkept hmoves
        · obtain ⟨j, -, heq⟩ := List.mem_map.mp hmem
          cases heq
  | batch results rest outcome =>
    obtain ⟨hcovered, hresults⟩ := hkept
    dsimp only at h
    have hfst : (results.map fun x => (x.1, x.2.or (s.closeResult wake x.1))).map Prod.fst =
        results.map Prod.fst := by
      rw [List.map_map]
      rfl
    have hresults' : ∀ i r, (i, some (some r)) ∈
        (results.map fun x => (x.1, x.2.or (s.closeResult wake x.1))) →
          ∃ h, s.handles[i]? = some h ∧ h.close = .done r := by
      intro i r hmem
      obtain ⟨⟨j, x⟩, hx, heq⟩ := List.mem_map.mp hmem
      obtain ⟨rfl, hresult⟩ := Prod.mk.inj heq
      cases x with
      | none => exact closeResult_eq_some hresult
      | some x =>
        obtain rfl : x = some r := Option.some.inj hresult
        exact hresults j r hx
    split at h
    · rename_i hall
      cases h
      rw [List.all_eq_true] at hall
      exact covered_record (hfst.symm ▸ hcovered) hresults' hall
    · split at h
      · cases h
      · cases h
        exact ⟨hfst.symm ▸ hcovered, hresults'⟩

/-- What is kept of the closes, where the coordinator stands. -/
def Closing (handles : List Handle) : Coordinator → Prop
  | .draining _ _ (.working _ closes _ _) => ClosesKept handles closes
  | _ => True

theorem closing_endOfDrain (handles : List Handle) (startupError : Option ServerError)
    (result : Except ServerError Unit) : Closing handles (endOfDrain startupError result) := by
  rcases endOfDrain_cases startupError result with ⟨-, heq⟩ | ⟨_, e, -, heq, -⟩ <;> rw [heq] <;>
    trivial

theorem closing_moves {handles handles' : List Handle} {starting closing : Bool} {c : Coordinator}
    (h : Closing handles c) (hm : HandlesMove starting closing handles handles') :
    Closing handles' c := by
  cases c with
  | draining startupError fatal stage =>
    cases stage with
    | working listenerError closes call accept => exact ClosesKept.moves h hm
    | _ => trivial
  | _ => trivial

/-- A drain begins with all registrations to be closed. -/
theorem covered_all (handles : List Handle) (concurrency : Nat) :
    Covered handles ((List.range handles.length).reverse.toChunks concurrency).flatten
      ⟨false, none⟩ := by
  intro _ i hi
  left
  rw [flatten_toChunks, List.mem_reverse]
  exact List.mem_range.mpr hi

theorem closing_of_step (hstep : Step setup s s') (h : Closing s.handles s.coordinator) :
    Closing s'.handles s'.coordinator := by
  have hmoves : ∀ {c : Coordinator}, s.coordinator = c → s'.coordinator = c →
      Closing s'.handles c := by
    intro c hc hc'
    rcases handles_of_step hstep with ⟨n, planned, hn, -⟩ | hm
    · rw [← hc, hn]
      trivial
    · exact closing_moves (hc ▸ h) hm
  cases hstep with
  | listenerLost | published => exact covered_all _ _
  | closesMove hc hcloses =>
    rw [hc] at h
    exact pollCloses_keeps hcloses h
  | outcomeReceived hc =>
    rw [hc] at h
    exact h
  | listenerLate | workDone | workLate => exact closing_endOfDrain _ _ _
  | accepting | registering | prepared | preparationFailed | preparedAll | startupFailed
  | activationTaken | activationPending | activatedAll | storingReady | settingReady | announcing
  | servingEnds | drainStores | drainBegins | gateClosed | commandSent | listenerClosed | failing
  | storingStopped | settingStopped | completing => trivial
  | _ => exact hmoves rfl rfl

theorem closing_run (es : List ServerEvent) :
    Closing ((server setup).run es).handles ((server setup).run es).coordinator :=
  invariant (J := fun _ => True) (I := fun s => Closing s.handles s.coordinator)
    (fun _ => trivial) trivial (fun _ _ _ hstep h => closing_of_step hstep h) es

end Running

end Fusen.Server
