import Fusen.Lib.Text
import Fusen.Lib.Threads
import Fusen.Runtime.Sync

/-!
# The lifecycle of a registry handle (`fusen-register`)

A registration or subscription handle shares one `Lifecycle`: the start state
behind a mutex, a count of activation waiters, two flags and three `watch`
channels.  Every call on a handle and every drop is a thread that makes one
access to the shared state at a time, and the worker that runs the provider's
activation and cleanup moves between them, so the runs of `lifecycle` are all
interleavings of the atomic steps.
-/

namespace Fusen.Register

open Lib Fusen.Runtime

/-! ## Errors and results -/

inductive RegistryOperation where
  | prepareRegistration
  | activateRegistration
  | closeRegistration
  | prepareSubscription
  | activateSubscription
  | closeSubscription
  | directory
  deriving DecidableEq, Repr

inductive RegistryErrorKind where
  | unavailable
  | timeout
  | unauthorized
  | invalidResource
  | conflict
  | cancelled
  | cleanupAborted
  | internal
  deriving DecidableEq, Repr

structure RegistryError where
  operation : RegistryOperation
  kind : RegistryErrorKind
  message : Text
  deriving DecidableEq

def defaultMessage : RegistryErrorKind → Text
  | .unavailable => "registry provider is unavailable".toList
  | .timeout => "registry operation timed out".toList
  | .unauthorized => "registry provider rejected the operation".toList
  | .invalidResource => "registry resource is invalid".toList
  | .conflict => "registry resource conflicts with existing state".toList
  | .cancelled => "registry operation was cancelled".toList
  | .cleanupAborted => "registry cleanup did not complete".toList
  | .internal => "registry operation failed internally".toList

/-- `RegistryError::new`, without the source it retains. -/
def RegistryError.new (operation : RegistryOperation) (kind : RegistryErrorKind) : RegistryError :=
  ⟨operation, kind, defaultMessage kind⟩

/-- A `Result<(), RegistryError>`. -/
inductive RegistryResult where
  | ok
  | err (e : RegistryError)
  deriving DecidableEq

abbrev SharedResult := Option RegistryResult

/-- The operations a handle's errors name. -/
structure Operations where
  activation : RegistryOperation
  close : RegistryOperation

def prepareRegistration : Operations := ⟨.activateRegistration, .closeRegistration⟩

def prepareSubscription : Operations := ⟨.activateSubscription, .closeSubscription⟩

namespace Operations

variable (ops : Operations)

/-- What `activate` returns where there is no Tokio runtime. -/
def noRuntime : RegistryResult := .err (.new ops.activation .internal)

def closedBeforeActivation : RegistryResult :=
  .err ⟨ops.activation, .cancelled, "registry handle closed before activation".toList⟩

def closedWhilePending : RegistryResult :=
  .err ⟨ops.activation, .cancelled, "registry handle closed while activation was pending".toList⟩

def activationPanicked : RegistryResult :=
  .err ⟨ops.activation, .internal, "registry provider activation panicked".toList⟩

def cleanupPanicked : RegistryResult :=
  .err ⟨ops.close, .internal, "registry provider cleanup panicked".toList⟩

def cleanupFactoryPanicked : RegistryResult :=
  .err ⟨ops.close, .internal, "registry provider cleanup factory panicked".toList⟩

def activationAborted : RegistryResult :=
  .err ⟨ops.activation, .internal, "registry activation worker was aborted".toList⟩

def cleanupAborted : RegistryResult :=
  .err ⟨ops.close, .cleanupAborted, "registry cleanup worker was aborted".toList⟩

end Operations

/-! ## The worker -/

/-- How a future of the provider ends, or the call of its cleanup factory. -/
inductive Provided where
  | result (r : RegistryResult)
  | panicked

def Provided.result? (panicked : RegistryResult) : Provided → RegistryResult
  | .result r => r
  | .panicked => panicked

/-- Where the worker stands: the name says what it does next. -/
inductive WorkerPhase where
  /-- There is no worker. -/
  | absent
  /-- Spawned and not polled yet. -/
  | spawned
  /-- Awaits the activation future. -/
  | activating
  /-- The activation has ended with `r`; the close request is read next. -/
  | activated (r : RegistryResult)
  | publishing (r : RegistryResult)
  /-- The activation result is published; the close request is read again next. -/
  | published
  /-- Awaits a change of the close request. -/
  | awaiting
  /-- Calls the cleanup factory next. -/
  | closing
  /-- Awaits the cleanup future. -/
  | cleaning
  | closed (r : RegistryResult)
  | finished
  /-- Aborted before the activation result was published, which its drop does next. -/
  | aborted
  /-- Aborted, and its drop publishes the close result next. -/
  | cleanupAborted
  | dropped
  deriving DecidableEq

/-- The worker, with the version of the close request it has seen.  `outcome` is how
the activation future ended. -/
structure Worker where
  phase : WorkerPhase
  seen : Nat
  outcome : Option RegistryResult

/-! ## The shared state -/

inductive StartState where
  | prepared
  | started
  | finished
  deriving DecidableEq, Repr

/-- `handles` are the clones of the handle and `owners` all `Arc`s of the lifecycle,
those of calls under way included.  `activations` and `cleanups` count how often the
activation future was started and the cleanup factory called. -/
structure Lifecycle where
  locked : Bool
  start : StartState
  activationWaiters : Nat
  activationObserved : Bool
  closeRequested : Bool
  closeRequest : Watch Bool
  activationResult : Watch SharedResult
  closeResult : Watch SharedResult
  handles : Nat
  owners : Nat
  worker : Worker
  activations : Nat
  cleanups : Nat

def Lifecycle.new : Lifecycle where
  locked := false
  start := .prepared
  activationWaiters := 0
  activationObserved := false
  closeRequested := false
  closeRequest := .channel false
  activationResult := .channel none
  closeResult := .channel none
  handles := 1
  owners := 1
  worker := ⟨.absent, 0, none⟩
  activations := 0
  cleanups := 0

namespace Lifecycle

/-- `LifecycleWorker::run`, one step. -/
def workerNext (ops : Operations) (s : Lifecycle) (provided : Provided) : Option Lifecycle :=
  match s.worker.phase with
  | .spawned =>
    some { s with worker.phase := .activating, activations := s.activations + 1 }
  | .activating =>
    let r := provided.result? ops.activationPanicked
    some { s with worker.phase := .activated r, worker.outcome := some r }
  | .activated r =>
    if s.closeRequest.value ∧ r = .ok then
      some { s with worker.phase := .publishing ops.closedWhilePending }
    else some { s with worker.phase := .publishing r }
  | .publishing r =>
    some { s with
      worker.phase := .published
      activationResult := s.activationResult.sendReplace (some r) }
  | .published =>
    if s.closeRequest.value then some { s with worker.phase := .closing }
    else some { s with worker.phase := .awaiting }
  | .awaiting =>
    if s.closeRequest.changed s.worker.seen then some { s with worker.phase := .closing } else none
  | .closing =>
    match provided with
    | .result _ => some { s with worker.phase := .cleaning, cleanups := s.cleanups + 1 }
    | .panicked =>
      some { s with
        worker.phase := .closed ops.cleanupFactoryPanicked
        cleanups := s.cleanups + 1 }
  | .cleaning => some { s with worker.phase := .closed (provided.result? ops.cleanupPanicked) }
  | .closed r =>
    some { s with
      worker.phase := .finished
      closeResult := s.closeResult.sendReplace (some r) }
  | .aborted =>
    some { s with
      worker.phase := .cleanupAborted
      activationResult := s.activationResult.sendReplace (some ops.activationAborted) }
  | .cleanupAborted =>
    some { s with
      worker.phase := .dropped
      closeResult := s.closeResult.sendReplace (some ops.cleanupAborted) }
  | .absent | .finished | .dropped => none

/-- The task of the worker is dropped, where it awaits. -/
def workerAbort (s : Lifecycle) : Option Lifecycle :=
  match s.worker.phase with
  | .spawned | .activating => some { s with worker.phase := .aborted }
  | .awaiting | .cleaning => some { s with worker.phase := .cleanupAborted }
  | _ => none

end Lifecycle

/-! ## Calls -/

inductive CallKind where
  | activate
  | close
  | requestClose
  | clone
  | dropHandle
  /-- Not a call: the runtime, which polls the worker or drops its task. -/
  | runtime
  deriving DecidableEq, Repr

/-- How a call has ended. -/
inductive CallEnd where
  | activated (r : RegistryResult)
  | closed (r : RegistryResult)
  /-- An activation or close future was dropped. -/
  | cancelled
  | done
  deriving DecidableEq

/-- What follows a `request_close`. -/
inductive AfterRequest where
  | waitClose
  /-- It was the last waiter's, whose activation future is being dropped. -/
  | cancelledWaiter
  | requested
  /-- It was that of the last owner's drop. -/
  | lastDrop (e : CallEnd)
  deriving DecidableEq

/-- What follows the publication of results under the lock. -/
inductive AfterPublish where
  | waitActivation
  | complete (r : RegistryResult)
  | request (next : AfterRequest)
  deriving DecidableEq

/-- Where a call stands: the name says what it does next. -/
inductive Call where
  /-- On a handle, before it has its own `Arc`. -/
  | called (kind : CallKind)
  /-- An activation future that is not polled yet. -/
  | registered
  /-- `ensure_started`, before the lock. -/
  | lockStart
  /-- It has the lock and reads `close_requested` next. -/
  | readRequested
  | spawnWorker
  /-- `finish_before_start`, before the lock. -/
  | lockFinish
  /-- It has the lock and sends the activation result next. -/
  | publish (r : RegistryResult) (next : AfterPublish)
  | publishClose (next : AfterPublish)
  | waitActivation
  /-- `complete`, before the store of `activation_observed`. -/
  | complete (r : RegistryResult)
  /-- `release`, with the result of a completed waiter. -/
  | release (r : Option RegistryResult)
  /-- The last waiter was cancelled and reads `activation_observed` next. -/
  | readObserved
  /-- `request_close`, before the swap. -/
  | request (next : AfterRequest)
  | sendRequest (next : AfterRequest)
  | lockRequest (next : AfterRequest)
  /-- A close future that is not polled yet. -/
  | closing
  | waitClose
  /-- Drops its `Arc` next. -/
  | dropArc (e : CallEnd)
  | ended (e : CallEnd)
  | runtime
  deriving DecidableEq

def AfterRequest.call : AfterRequest → Call
  | .waitClose => .waitClose
  | .cancelledWaiter => .dropArc .cancelled
  | .requested => .dropArc .done
  | .lastDrop e => .ended e

def AfterPublish.call : AfterPublish → Call
  | .waitActivation => .waitActivation
  | .complete r => .complete r
  | .request next => next.call

/-- `run` is the call's own next step, with or without a Tokio runtime around it;
`drop` drops a future where it awaits.  The others are the runtime's. -/
inductive Action where
  | run (inRuntime : Bool)
  | drop
  | poll (provided : Provided)
  | abort

namespace Lifecycle

/-- A call takes its `Arc`.  A `request_close` keeps the handle it borrows alive. -/
def begin (s : Lifecycle) : CallKind → Option (Lifecycle × Call)
  | .activate =>
    some ({ s with owners := s.owners + 1, activationWaiters := s.activationWaiters + 1 },
      .registered)
  | .close => some ({ s with owners := s.owners + 1 }, .closing)
  | .requestClose => some ({ s with owners := s.owners + 1 }, .request .requested)
  | .clone => some ({ s with owners := s.owners + 1, handles := s.handles + 1 }, .ended .done)
  | .dropHandle => some ({ s with handles := s.handles - 1 }, .dropArc .done)
  | .runtime => none

/-- The atomic steps. -/
def next (ops : Operations) (s : Lifecycle) : Call → Action → Option (Lifecycle × Call)
  | .called kind, .run _ => if 0 < s.handles then s.begin kind else none
  | .registered, .run inRuntime =>
    if s.activationResult.value.isSome then some (s, .waitActivation)
    else if inRuntime then some (s, .lockStart)
    else some (s, .lockFinish)
  | .registered, .drop => some (s, .release none)
  | .lockStart, .run _ =>
    if s.locked then none
    else if s.start = .prepared then some ({ s with locked := true }, .readRequested)
    else some (s, .waitActivation)
  | .readRequested, .run _ =>
    if s.closeRequested then
      some ({ s with start := .finished }, .publish ops.closedBeforeActivation .waitActivation)
    else some (s, .spawnWorker)
  | .spawnWorker, .run _ =>
    some ({ s with
      worker := ⟨.spawned, s.closeRequest.version, none⟩
      start := .started
      locked := false }, .waitActivation)
  | .lockFinish, .run _ =>
    if s.locked then none
    else if s.start = .prepared then
      some ({ s with locked := true, start := .finished },
        .publish ops.noRuntime (.complete ops.noRuntime))
    else some (s, .complete ops.noRuntime)
  | .publish r next, .run _ =>
    some ({ s with activationResult := s.activationResult.sendReplace (some r) },
      .publishClose next)
  | .publishClose next, .run _ =>
    some ({ s with closeResult := s.closeResult.sendReplace (some .ok), locked := false },
      next.call)
  | .waitActivation, .run _ => s.activationResult.value.map fun r => (s, .complete r)
  | .waitActivation, .drop => some (s, .release none)
  | .complete r, .run _ => some ({ s with activationObserved := true }, .release (some r))
  | .release (some r), .run _ =>
    some ({ s with activationWaiters := s.activationWaiters - 1 }, .dropArc (.activated r))
  | .release none, .run _ =>
    if s.activationWaiters = 1 then
      some ({ s with activationWaiters := s.activationWaiters - 1 }, .readObserved)
    else some ({ s with activationWaiters := s.activationWaiters - 1 }, .dropArc .cancelled)
  | .readObserved, .run _ =>
    if s.activationObserved then some (s, .dropArc .cancelled)
    else some (s, .request .cancelledWaiter)
  | .request next, .run _ =>
    if s.closeRequested then some (s, .lockRequest next)
    else some ({ s with closeRequested := true }, .sendRequest next)
  | .sendRequest next, .run _ =>
    some ({ s with closeRequest := s.closeRequest.sendReplace true }, .lockRequest next)
  | .lockRequest next, .run _ =>
    if s.locked then none
    else if s.start = .prepared then
      some ({ s with locked := true, start := .finished },
        .publish ops.closedBeforeActivation (.request next))
    else some (s, next.call)
  | .closing, .run _ => some (s, .request .waitClose)
  | .closing, .drop => some (s, .dropArc .cancelled)
  | .waitClose, .run _ => s.closeResult.value.map fun r => (s, .dropArc (.closed r))
  | .waitClose, .drop => some (s, .dropArc .cancelled)
  | .dropArc e, .run _ =>
    if s.owners = 1 then some ({ s with owners := s.owners - 1 }, .request (.lastDrop e))
    else some ({ s with owners := s.owners - 1 }, .ended e)
  | .runtime, .poll provided => (s.workerNext ops provided).map fun s => (s, .runtime)
  | .runtime, .abort => s.workerAbort.map fun s => (s, .runtime)
  | _, _ => none

end Lifecycle

def CallKind.start : CallKind → Call
  | .runtime => .runtime
  | kind => .called kind

/-- A handle and all calls on it. -/
def lifecycle (ops : Operations) : Threads Lifecycle Call CallKind Action where
  shared := .new
  start := CallKind.start
  next := Lifecycle.next ops

end Fusen.Register
