import Fusen.Register.Lifecycle

/-!
# One step of a lifecycle

What a call holds and owes at each point (`prepares`, `publishes`, `sends`, `waits`,
`owns`, `observes`, `asks`) and how one atomic step moves it between the call and
the shared state.
-/

namespace Fusen.Register

open Lib Fusen.Runtime

/-! ## What a call holds -/

def CallEnd.observes : CallEnd → Nat
  | .activated _ => 1
  | .closed _ | .cancelled | .done => 0

namespace AfterRequest

def owns : AfterRequest → Nat
  | .lastDrop _ => 0
  | .waitClose | .cancelledWaiter | .requested => 1

def end? : AfterRequest → Option CallEnd
  | .lastDrop e => some e
  | .waitClose | .cancelledWaiter | .requested => none

end AfterRequest

namespace AfterPublish

def waits : AfterPublish → Nat
  | .waitActivation | .complete _ => 1
  | .request _ => 0

def owns : AfterPublish → Nat
  | .waitActivation | .complete _ => 1
  | .request next => next.owns

def end? : AfterPublish → Option CallEnd
  | .waitActivation | .complete _ => none
  | .request next => next.end?

end AfterPublish

namespace Call

/-- The call has the lock of a prepared lifecycle. -/
def prepares : Call → Nat
  | .readRequested | .spawnWorker => 1
  | _ => 0

/-- The call has the lock and still sends the activation result. -/
def publishes : Call → Nat
  | .publish .. => 1
  | _ => 0

/-- The call has the lock and still sends the close result. -/
def publishesClose : Call → Nat
  | .publishClose _ => 1
  | _ => 0

/-- The call has set `close_requested` and still sends the request. -/
def sends : Call → Nat
  | .sendRequest _ => 1
  | _ => 0

/-- The call is a registered waiter of the activation. -/
def waits : Call → Nat
  | .registered | .lockStart | .readRequested | .spawnWorker | .lockFinish | .waitActivation
  | .complete _ | .release _ => 1
  | .publish _ next | .publishClose next => next.waits
  | _ => 0

/-- The call has an `Arc` of the lifecycle. -/
def owns : Call → Nat
  | .called _ | .ended _ | .runtime => 0
  | .publish _ next | .publishClose next => next.owns
  | .request next | .sendRequest next | .lockRequest next => next.owns
  | _ => 1

/-- How the call ends, once that is settled. -/
def end? : Call → Option CallEnd
  | .dropArc e | .ended e => some e
  | .request next | .sendRequest next | .lockRequest next => next.end?
  | .publish _ next | .publishClose next => next.end?
  | _ => none

/-- The call is an activation that has a result and has stored `activation_observed`. -/
def observes : Call → Nat
  | .release (some _) => 1
  | t => (t.end?.map CallEnd.observes).getD 0

/-- The call requests the close next, or first reads whether the activation was observed. -/
def asks : Call → Nat
  | .readObserved | .request _ => 1
  | _ => 0

/-- The call swaps `close_requested` next. -/
def requests : Call → Nat
  | .request _ => 1
  | _ => 0

end Call

/-- A call that has neither the lock nor a request to make. -/
structure Call.Free (t : Call) : Prop where
  prepares : t.prepares = 0
  publishes : t.publishes = 0
  publishesClose : t.publishesClose = 0
  sends : t.sends = 0
  asks : t.asks = 0
  requests : t.requests = 0

theorem AfterRequest.free (n : AfterRequest) : n.call.Free := by
  cases n <;> constructor <;> rfl

theorem AfterPublish.free (m : AfterPublish) : m.call.Free := by
  cases m with
  | request n => exact n.free
  | _ => constructor <;> rfl

@[simp] theorem AfterRequest.waits_call (n : AfterRequest) : n.call.waits = 0 := by cases n <;> rfl

@[simp] theorem AfterRequest.owns_call (n : AfterRequest) : n.call.owns = n.owns := by
  cases n <;> rfl

@[simp] theorem AfterPublish.waits_call (m : AfterPublish) : m.call.waits = m.waits := by
  cases m with
  | request n => exact n.waits_call
  | _ => rfl

@[simp] theorem AfterPublish.owns_call (m : AfterPublish) : m.call.owns = m.owns := by
  cases m with
  | request n => exact n.owns_call
  | _ => rfl

theorem AfterRequest.observes_call (n : AfterRequest) :
    n.call.observes = (Call.lockRequest n).observes := by
  cases n with
  | lastDrop e => cases e <;> rfl
  | _ => rfl

theorem AfterPublish.observes_call (m : AfterPublish) :
    m.call.observes = (Call.publishClose m).observes := by
  cases m with
  | request n => exact n.observes_call.trans rfl
  | _ => rfl

/-! ## The worker -/

/-- The worker has published the activation result. -/
def WorkerPhase.activationSent : WorkerPhase → Nat
  | .published | .awaiting | .closing | .cleaning | .closed _ | .finished | .cleanupAborted
  | .dropped => 1
  | _ => 0

def WorkerPhase.closeSent : WorkerPhase → Nat
  | .finished | .dropped => 1
  | _ => 0

/-- What the worker has done by where it stands. -/
def Lifecycle.WorkerDone (s : Lifecycle) : Prop :=
  match s.worker.phase with
  | .absent | .spawned => s.worker.outcome = none ∧ s.activations = 0 ∧ s.cleanups = 0
  | .activating => s.worker.outcome = none ∧ s.activations = 1 ∧ s.cleanups = 0
  | .activated r => s.worker.outcome = some r ∧ s.activations = 1 ∧ s.cleanups = 0
  | .publishing _ | .published | .closing =>
    s.worker.outcome.isSome ∧ s.activations = 1 ∧ s.cleanups = 0
  | .awaiting =>
    s.worker.outcome.isSome ∧ s.activations = 1 ∧ s.cleanups = 0 ∧ s.worker.seen = 0
  | .cleaning | .closed _ | .finished =>
    s.worker.outcome.isSome ∧ s.activations = 1 ∧ s.cleanups = 1
  | .aborted => s.activations ≤ 1 ∧ s.cleanups = 0
  | .cleanupAborted | .dropped =>
    s.activations ≤ 1 ∧ s.cleanups ≤ 1 ∧
      (0 < s.cleanups → s.worker.outcome.isSome ∧ s.activations = 1)

section Worker

variable {ops : Operations} {s s' : Lifecycle} {provided : Provided}

/-- What the worker leaves alone. -/
structure SameCalls (s s' : Lifecycle) : Prop where
  locked : s'.locked = s.locked
  start : s'.start = s.start
  activationWaiters : s'.activationWaiters = s.activationWaiters
  activationObserved : s'.activationObserved = s.activationObserved
  closeRequested : s'.closeRequested = s.closeRequested
  closeRequest : s'.closeRequest = s.closeRequest
  handles : s'.handles = s.handles
  owners : s'.owners = s.owners
  seen : s'.worker.seen = s.worker.seen

theorem sameCalls_workerNext (h : s.workerNext ops provided = some s') : SameCalls s s' := by
  revert h
  fun_cases Lifecycle.workerNext ops s provided <;> intro h <;> cases h <;> constructor <;> rfl

theorem sameCalls_workerAbort (h : s.workerAbort = some s') : SameCalls s s' := by
  revert h
  fun_cases Lifecycle.workerAbort s <;> intro h <;> cases h <;> constructor <;> rfl

/-- A result is sent when the phase says so, and carries a value. -/
structure SendsByPhase (s s' : Lifecycle) : Prop where
  present : s.worker.phase ≠ .absent
  present' : s'.worker.phase ≠ .absent
  activation : s'.activationResult.version + s.worker.phase.activationSent =
    s.activationResult.version + s'.worker.phase.activationSent
  close : s'.closeResult.version + s.worker.phase.closeSent =
    s.closeResult.version + s'.worker.phase.closeSent
  activationValue : s'.activationResult = s.activationResult ∨
    ∃ r, s'.activationResult = s.activationResult.sendReplace (some r)
  closeValue : s'.closeResult = s.closeResult ∨
    ∃ r, s'.closeResult = s.closeResult.sendReplace (some r)

theorem sendsByPhase_workerNext (h : s.workerNext ops provided = some s') : SendsByPhase s s' := by
  revert h
  fun_cases Lifecycle.workerNext ops s provided <;> intro h <;> cases h
  all_goals
    refine ⟨by simp [*], by simp, by simp [*, WorkerPhase.activationSent],
      by simp [*, WorkerPhase.closeSent], ?_, ?_⟩
    · first
        | exact .inl rfl
        | exact .inr ⟨_, rfl⟩
    · first
        | exact .inl rfl
        | exact .inr ⟨_, rfl⟩

theorem sendsByPhase_workerAbort (h : s.workerAbort = some s') : SendsByPhase s s' := by
  revert h
  fun_cases Lifecycle.workerAbort s <;> intro h <;> cases h
  all_goals
    exact ⟨by simp [*], by simp, by simp [*, WorkerPhase.activationSent],
      by simp [*, WorkerPhase.closeSent], .inl rfl, .inl rfl⟩

theorem workerDone_workerNext (h : s.workerNext ops provided = some s') (hd : s.WorkerDone)
    (hseen : s.worker.seen ≤ s.closeRequest.version)
    (hvalue : s.closeRequest.value = false → s.closeRequest.version = 0) : s'.WorkerDone := by
  revert h
  fun_cases Lifecycle.workerNext ops s provided <;> intro h <;> cases h
  all_goals
    simp_all [Lifecycle.WorkerDone]

theorem workerDone_workerAbort (h : s.workerAbort = some s') (hd : s.WorkerDone) :
    s'.WorkerDone := by
  revert h
  fun_cases Lifecycle.workerAbort s <;> intro h <;> cases h
  all_goals
    simp_all [Lifecycle.WorkerDone]

end Worker

/-! ## What a step of a call can be -/

/-- The steps of a call, each with what it has found. -/
inductive CallStep (ops : Operations) (s : Lifecycle) : Call → Lifecycle → Call → Prop
  | activate (hhandles : 0 < s.handles) : CallStep ops s (.called .activate)
      { s with owners := s.owners + 1, activationWaiters := s.activationWaiters + 1 } .registered
  | close (hhandles : 0 < s.handles) :
      CallStep ops s (.called .close) { s with owners := s.owners + 1 } .closing
  | requestClose (hhandles : 0 < s.handles) :
      CallStep ops s (.called .requestClose) { s with owners := s.owners + 1 } (.request .requested)
  | clone (hhandles : 0 < s.handles) : CallStep ops s (.called .clone)
      { s with owners := s.owners + 1, handles := s.handles + 1 } (.ended .done)
  | dropHandle (hhandles : 0 < s.handles) :
      CallStep ops s (.called .dropHandle) { s with handles := s.handles - 1 } (.dropArc .done)
  | hasResult (h : s.activationResult.value.isSome) : CallStep ops s .registered s .waitActivation
  | inRuntime : CallStep ops s .registered s .lockStart
  | noRuntime : CallStep ops s .registered s .lockFinish
  | cancelRegistered : CallStep ops s .registered s (.release none)
  | lockPrepared (hlock : s.locked = false) (hstart : s.start = .prepared) :
      CallStep ops s .lockStart { s with locked := true } .readRequested
  | alreadyStarted (hstart : s.start ≠ .prepared) : CallStep ops s .lockStart s .waitActivation
  | closedBefore (hreq : s.closeRequested = true) : CallStep ops s .readRequested
      { s with start := .finished } (.publish ops.closedBeforeActivation .waitActivation)
  | notClosed (hreq : s.closeRequested = false) : CallStep ops s .readRequested s .spawnWorker
  | spawn : CallStep ops s .spawnWorker
      { s with
        worker := ⟨.spawned, s.closeRequest.version, none⟩
        start := .started
        locked := false } .waitActivation
  | finish (hlock : s.locked = false) (hstart : s.start = .prepared) : CallStep ops s .lockFinish
      { s with locked := true, start := .finished }
      (.publish ops.noRuntime (.complete ops.noRuntime))
  | stray (hlock : s.locked = false) (hstart : s.start ≠ .prepared) :
      CallStep ops s .lockFinish s (.complete ops.noRuntime)
  | publish (r : RegistryResult) (next : AfterPublish) : CallStep ops s (.publish r next)
      { s with activationResult := s.activationResult.sendReplace (some r) } (.publishClose next)
  | publishClose (next : AfterPublish) : CallStep ops s (.publishClose next)
      { s with closeResult := s.closeResult.sendReplace (some .ok), locked := false } next.call
  | result (r : RegistryResult) (h : s.activationResult.value = some r) :
      CallStep ops s .waitActivation s (.complete r)
  | cancelWait : CallStep ops s .waitActivation s (.release none)
  | observe (r : RegistryResult) :
      CallStep ops s (.complete r) { s with activationObserved := true } (.release (some r))
  | release (r : RegistryResult) : CallStep ops s (.release (some r))
      { s with activationWaiters := s.activationWaiters - 1 } (.dropArc (.activated r))
  | releaseLast (hlast : s.activationWaiters = 1) : CallStep ops s (.release none)
      { s with activationWaiters := s.activationWaiters - 1 } .readObserved
  | releaseOther (hother : s.activationWaiters ≠ 1) : CallStep ops s (.release none)
      { s with activationWaiters := s.activationWaiters - 1 } (.dropArc .cancelled)
  | observed (hobs : s.activationObserved = true) :
      CallStep ops s .readObserved s (.dropArc .cancelled)
  | notObserved (hobs : s.activationObserved = false) :
      CallStep ops s .readObserved s (.request .cancelledWaiter)
  | requestedBefore (next : AfterRequest) (hreq : s.closeRequested = true) :
      CallStep ops s (.request next) s (.lockRequest next)
  | request (next : AfterRequest) (hreq : s.closeRequested = false) :
      CallStep ops s (.request next) { s with closeRequested := true } (.sendRequest next)
  | send (next : AfterRequest) : CallStep ops s (.sendRequest next)
      { s with closeRequest := s.closeRequest.sendReplace true } (.lockRequest next)
  | finishPrepared (next : AfterRequest) (hlock : s.locked = false) (hstart : s.start = .prepared) :
      CallStep ops s (.lockRequest next) { s with locked := true, start := .finished }
        (.publish ops.closedBeforeActivation (.request next))
  | notPrepared (next : AfterRequest) (hstart : s.start ≠ .prepared) :
      CallStep ops s (.lockRequest next) s next.call
  | closing : CallStep ops s .closing s (.request .waitClose)
  | cancelClosing : CallStep ops s .closing s (.dropArc .cancelled)
  | closeResult (r : RegistryResult) (h : s.closeResult.value = some r) :
      CallStep ops s .waitClose s (.dropArc (.closed r))
  | cancelClose : CallStep ops s .waitClose s (.dropArc .cancelled)
  | dropLast (e : CallEnd) (hlast : s.owners = 1) : CallStep ops s (.dropArc e)
      { s with owners := s.owners - 1 } (.request (.lastDrop e))
  | drop (e : CallEnd) (hother : s.owners ≠ 1) : CallStep ops s (.dropArc e)
      { s with owners := s.owners - 1 } (.ended e)
  | poll {s' : Lifecycle} (provided : Provided) (h : s.workerNext ops provided = some s') :
      CallStep ops s .runtime s' .runtime
  | abort {s' : Lifecycle} (h : s.workerAbort = some s') : CallStep ops s .runtime s' .runtime

theorem callStep_of_next {ops : Operations} {s s' : Lifecycle} {t t' : Call} {a : Action}
    (h : s.next ops t a = some (s', t')) : CallStep ops s t s' t' := by
  revert h
  fun_cases Lifecycle.next ops s t a <;> intro h
  all_goals try simp only [Bool.not_eq_true] at *
  case case1 kind _ hhandles =>
    cases kind <;> cases h <;> constructor <;> exact hhandles
  all_goals first
    | obtain ⟨r, hr, h⟩ := Option.map_eq_some_iff.mp h
      cases h
      first
        | exact .result r hr
        | exact .closeResult r hr
        | exact .poll _ hr
        | exact .abort hr
    | cases h <;> constructor <;> assumption

/-! ## What a step moves between the call and the shared state -/

section Step

variable {ops : Operations} {s s' : Lifecycle} {t t' : Call}

/-- The lock is with the call that prepares or publishes. -/
theorem CallStep.locked (h : CallStep ops s t s' t')
    (hle : t.prepares + t.publishes + t.publishesClose ≤ s.locked.toNat) :
    s'.locked.toNat + (t.prepares + t.publishes + t.publishesClose) =
      s.locked.toNat + (t'.prepares + t'.publishes + t'.publishesClose) := by
  cases h with
  | spawn =>
    simp only [Call.prepares, Call.publishes, Call.publishesClose, Bool.toNat_false] at hle ⊢
    have := Bool.toNat_le s.locked
    omega
  | publishClose next =>
    have hfree := next.free
    rw [hfree.prepares, hfree.publishes, hfree.publishesClose]
    simp only [Call.prepares, Call.publishes, Call.publishesClose, Bool.toNat_false] at hle ⊢
    have := Bool.toNat_le s.locked
    omega
  | lockPrepared hlock => simp [Call.prepares, Call.publishes, Call.publishesClose, hlock]
  | finish hlock => simp [Call.prepares, Call.publishes, Call.publishesClose, hlock]
  | finishPrepared next hlock => simp [Call.prepares, Call.publishes, Call.publishesClose, hlock]
  | notPrepared next =>
    have hfree := next.free
    rw [hfree.prepares, hfree.publishes, hfree.publishesClose]
    rfl
  | poll provided hw => rw [(sameCalls_workerNext hw).locked]
  | abort hw => rw [(sameCalls_workerAbort hw).locked]
  | _ => rfl

/-- The request is sent once, by the call that set the flag. -/
theorem CallStep.sends (h : CallStep ops s t s' t') :
    s'.closeRequest.version + t'.sends + s.closeRequested.toNat =
      s.closeRequest.version + t.sends + s'.closeRequested.toNat := by
  cases h with
  | publishClose next => rw [next.free.sends]; rfl
  | notPrepared next => rw [next.free.sends]; rfl
  | request next hreq => simp [Call.sends, hreq]
  | send next =>
    simp only [Call.sends, Watch.version_sendReplace]
  | poll provided hw =>
    rw [(sameCalls_workerNext hw).closeRequest, (sameCalls_workerNext hw).closeRequested]
  | abort hw =>
    rw [(sameCalls_workerAbort hw).closeRequest, (sameCalls_workerAbort hw).closeRequested]
  | _ => rfl

theorem CallStep.waits (h : CallStep ops s t s' t') (hle : t.waits ≤ s.activationWaiters) :
    s'.activationWaiters + t.waits = s.activationWaiters + t'.waits := by
  cases h with
  | publishClose next => rw [next.waits_call]; rfl
  | notPrepared next => rw [next.waits_call]; rfl
  | release r =>
    simp only [Call.waits] at hle ⊢
    omega
  | releaseLast hlast =>
    simp only [Call.waits] at hle ⊢
    omega
  | releaseOther hother =>
    simp only [Call.waits] at hle ⊢
    omega
  | poll provided hw => rw [(sameCalls_workerNext hw).activationWaiters]
  | abort hw => rw [(sameCalls_workerAbort hw).activationWaiters]
  | _ => rfl

theorem CallStep.owns (h : CallStep ops s t s' t') (hle : s.handles + t.owns ≤ s.owners) :
    s'.owners + (s.handles + t.owns) = s.owners + (s'.handles + t'.owns) := by
  cases h with
  | publishClose next => rw [next.owns_call]; rfl
  | notPrepared next => rw [next.owns_call]; rfl
  | clone =>
    simp only [Call.owns]
    omega
  | dropHandle hhandles =>
    simp only [Call.owns]
    omega
  | dropLast e hlast =>
    simp only [Call.owns, AfterRequest.owns] at hle ⊢
    omega
  | drop e hother =>
    simp only [Call.owns] at hle ⊢
    omega
  | poll provided hw =>
    rw [(sameCalls_workerNext hw).owners, (sameCalls_workerNext hw).handles]
  | abort hw => rw [(sameCalls_workerAbort hw).owners, (sameCalls_workerAbort hw).handles]
  | _ => first | rfl | (simp only [Call.owns, AfterRequest.owns]; omega)

/-- An activation with a result stores `activation_observed`. -/
theorem CallStep.observes (h : CallStep ops s t s' t') :
    t'.observes = t.observes ∧ s'.activationObserved = s.activationObserved ∨
      t'.observes = 1 ∧ t.observes = 0 ∧ s'.activationObserved = true := by
  cases h with
  | observe r => exact .inr ⟨rfl, rfl, rfl⟩
  | publishClose next => exact .inl ⟨next.observes_call, rfl⟩
  | notPrepared next => exact .inl ⟨next.observes_call, rfl⟩
  | poll provided hw => exact .inl ⟨rfl, (sameCalls_workerNext hw).activationObserved⟩
  | abort hw => exact .inl ⟨rfl, (sameCalls_workerAbort hw).activationObserved⟩
  | _ => exact .inl ⟨rfl, rfl⟩

end Step

end Fusen.Register
