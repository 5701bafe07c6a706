import Fusen.Lib.Text
import Fusen.Lib.Threads
import Fusen.Runtime.Sync

/-!
# Hot configuration (`fusen-config`)

A configuration handle shares the start state of its lifecycle and a publisher,
which keeps the latest raw document in a `watch` channel behind a lock.  A typed
view is a task that takes documents from that channel, parses them and keeps the
last good value.  Publications, lifecycle calls and views are threads of `hot`;
a thread makes one access to the shared state at a time.  The parser is a
parameter.
-/

namespace Fusen.Config

open Lib Fusen.Runtime

/-! ## Documents and errors -/

inductive ConfigFormat where
  | toml
  | yaml
  deriving DecidableEq, Repr

structure ConfigDocument where
  format : ConfigFormat
  content : Text
  deriving DecidableEq

inductive ConfigOperation where
  | read
  | parse
  | prepare
  | activate
  | publish
  | close
  | watch
  deriving DecidableEq, Repr

inductive ConfigErrorKind where
  | invalidInput
  | unsupportedFormat
  | io
  | invalidData
  | unavailable
  | unauthorized
  | timeout
  | cancelled
  | cleanupAborted
  | internal
  deriving DecidableEq, Repr

/-- A configuration error, without the source it retains. -/
structure ConfigError where
  operation : ConfigOperation
  kind : ConfigErrorKind
  message : Text
  deriving DecidableEq

abbrev ConfigResult := Except ConfigError Unit

/-- `ConfigError::new(operation, Internal, _)`, which has the default message of its kind. -/
def internalError (operation : ConfigOperation) : ConfigError :=
  ⟨operation, .internal, "configuration operation failed internally".toList⟩

def publisherClosed : ConfigError :=
  ⟨.publish, .cancelled, "configuration publisher is closed".toList⟩

def closedDuringActivation : ConfigError :=
  ⟨.activate, .cancelled, "configuration publisher closed during activation".toList⟩

def rawRevisionOverflowed (operation : ConfigOperation) : ConfigError :=
  ⟨operation, .internal, "raw configuration revision overflowed".toList⟩

def typedRevisionOverflowed : ConfigError :=
  ⟨.watch, .internal, "typed configuration revision overflowed".toList⟩

def notActivated : ConfigError :=
  ⟨.watch, .invalidInput,
    "configuration handle must be activated before creating a typed view".toList⟩

def handleClosed : ConfigError :=
  ⟨.watch, .cancelled, "configuration handle is closed".toList⟩

def noInitialDocument : ConfigError :=
  ⟨.watch, .internal, "activated configuration source did not publish an initial document".toList⟩

def closedBeforeActivation : ConfigError :=
  ⟨.activate, .cancelled, "configuration handle closed before activation".toList⟩

def closedWhilePending : ConfigError :=
  ⟨.activate, .cancelled, "configuration handle closed while activation was pending".toList⟩

def activationPanicked : ConfigError :=
  ⟨.activate, .internal, "configuration provider activation panicked".toList⟩

def cleanupPanicked : ConfigError :=
  ⟨.close, .internal, "configuration provider cleanup panicked".toList⟩

def cleanupFactoryPanicked : ConfigError :=
  ⟨.close, .internal, "configuration provider cleanup factory panicked".toList⟩

def activationAborted : ConfigError :=
  ⟨.activate, .internal, "configuration activation worker was aborted".toList⟩

def cleanupWorkerAborted : ConfigError :=
  ⟨.close, .cleanupAborted, "configuration cleanup worker was aborted".toList⟩

/-! ## The publisher -/

structure RawSnapshot where
  document : Option ConfigDocument
  closed : Bool
  deriving DecidableEq

/-- The publisher's state, all of whose operations run under its lock.  `documents` are
the documents it has taken, latest first. -/
structure Publisher where
  revision : Nat
  baseline : Option ConfigDocument
  closed : Bool
  sender : Watch RawSnapshot
  documents : List ConfigDocument

namespace Publisher

def new : Publisher where
  revision := 0
  baseline := none
  closed := false
  sender := .channel ⟨none, false⟩
  documents := []

def publish (s : Publisher) (document : ConfigDocument) : Except ConfigError Publisher :=
  if s.closed then .error publisherClosed
  else
    match Usize.checkedAdd s.revision 1 with
    | none => .error (rawRevisionOverflowed .publish)
    | some revision =>
      .ok { s with
        revision
        sender := s.sender.sendReplace ⟨some document, false⟩
        documents := document :: s.documents }

def publishInitial (s : Publisher) (document : ConfigDocument) : ConfigResult × Publisher :=
  if s.closed then (.error closedDuringActivation, s)
  else
    let s := { s with baseline := some document, documents := document :: s.documents }
    if s.sender.value.document.isNone then
      match Usize.checkedAdd s.revision 1 with
      | none => (.error (rawRevisionOverflowed .activate), s)
      | some revision =>
        (.ok (), { s with revision, sender := s.sender.sendReplace ⟨some document, false⟩ })
    else (.ok (), s)

/-- `finish`; `saturating_add` keeps the revision below `2 ^ 64`. -/
def finish (s : Publisher) : Publisher :=
  if s.closed then s
  else
    { s with
      closed := true
      revision := min (s.revision + 1) (Usize.size - 1)
      sender := s.sender.sendReplace ⟨s.sender.value.document, true⟩ }

end Publisher

/-! ## The lifecycle -/

inductive StartState where
  | prepared
  | started
  | finished
  deriving DecidableEq, Repr

/-- How a future of the provider ends, or the call of its cleanup factory. -/
inductive Provided where
  | activation (r : Except ConfigError ConfigDocument)
  | cleanup (r : ConfigResult)
  | panicked

/-- Where the lifecycle worker stands: the name says what it does next. -/
inductive WorkerPhase where
  | absent
  /-- Awaits the activation future. -/
  | activating
  /-- Publishes the initial document next. -/
  | initial (document : ConfigDocument)
  /-- The activation has ended with `r`; the close request is read next. -/
  | activated (r : ConfigResult)
  | publishing (r : ConfigResult)
  | published
  /-- Awaits a change of the close request. -/
  | awaiting
  /-- Calls the cleanup factory next. -/
  | closing
  /-- Awaits the cleanup future. -/
  | cleaning
  /-- Finishes the publisher next. -/
  | finishing (r : ConfigResult)
  | closed (r : ConfigResult)
  | finished
  /-- Dropped; what it has not published by then is published next. -/
  | aborted (activationPublished : Bool)
  | activationAborted
  | cleanupAborted
  | dropped

structure Worker where
  phase : WorkerPhase
  seen : Nat

/-- What all clones of a handle share. -/
structure Source where
  locked : Bool
  start : StartState
  closeRequested : Bool
  closeRequest : Watch Bool
  activationResult : Watch (Option ConfigResult)
  closeResult : Watch (Option ConfigResult)
  publisher : Publisher
  worker : Worker

def Source.new : Source where
  locked := false
  start := .prepared
  closeRequested := false
  closeRequest := .channel false
  activationResult := .channel none
  closeResult := .channel none
  publisher := .new
  worker := ⟨.absent, 0⟩

namespace Source

def finish (s : Source) : Source := { s with publisher := s.publisher.finish }

def sendActivation (s : Source) (r : ConfigResult) : Source :=
  { s with activationResult := s.activationResult.sendReplace (some r) }

def sendClose (s : Source) (r : ConfigResult) : Source :=
  { s with closeResult := s.closeResult.sendReplace (some r) }

def workerAt (s : Source) (phase : WorkerPhase) : Source := { s with worker.phase := phase }

/-- `LifecycleWorker::run`, one step. -/
def workerNext (s : Source) (provided : Provided) : Option Source :=
  match s.worker.phase, provided with
  | .activating, .activation (.ok document) => some (s.workerAt (.initial document))
  | .activating, .activation (.error e) => some (s.workerAt (.activated (.error e)))
  | .activating, .panicked => some (s.workerAt (.activated (.error activationPanicked)))
  | .initial document, _ =>
    let (r, publisher) := s.publisher.publishInitial document
    some ({ s with publisher }.workerAt (.activated r))
  | .activated (.ok ()), _ =>
    if s.closeRequest.value then some (s.workerAt (.publishing (.error closedWhilePending)))
    else some (s.workerAt (.publishing (.ok ())))
  | .activated (.error e), _ => some (s.workerAt (.publishing (.error e)))
  | .publishing r, _ => some ((s.sendActivation r).workerAt .published)
  | .published, _ =>
    if s.closeRequest.value then some (s.workerAt .closing) else some (s.workerAt .awaiting)
  | .awaiting, _ =>
    if s.closeRequest.changed s.worker.seen then some (s.workerAt .closing) else none
  | .closing, .cleanup _ => some (s.workerAt .cleaning)
  | .closing, .panicked => some (s.workerAt (.finishing (.error cleanupFactoryPanicked)))
  | .cleaning, .cleanup r => some (s.workerAt (.finishing r))
  | .cleaning, .panicked => some (s.workerAt (.finishing (.error cleanupPanicked)))
  | .finishing r, _ => some (s.finish.workerAt (.closed r))
  | .closed r, _ => some ((s.sendClose r).workerAt .finished)
  | .aborted false, _ => some (s.finish.workerAt .activationAborted)
  | .aborted true, _ => some (s.finish.workerAt .cleanupAborted)
  | .activationAborted, _ =>
    some ((s.sendActivation (.error Config.activationAborted)).workerAt .cleanupAborted)
  | .cleanupAborted, _ => some ((s.sendClose (.error cleanupWorkerAborted)).workerAt .dropped)
  | _, _ => none

/-- The task of the worker is dropped, where it awaits. -/
def workerAbort (s : Source) : Option Source :=
  match s.worker.phase with
  | .activating => some (s.workerAt (.aborted false))
  | .awaiting | .cleaning => some (s.workerAt (.aborted true))
  | _ => none

end Source

/-! ## Typed views -/

structure ConfigSnapshot (T : Type) where
  revision : Nat
  value : T
  deriving DecidableEq

/-- Where the task of a view stands. -/
inductive ViewTask (T : Type) where
  /-- Waits in `select!`. -/
  | select
  /-- A document was parsed; the error is cleared next. -/
  | accepted (revision : Nat) (value : T)
  | sending (revision : Nat) (value : T)
  | rejected (e : ConfigError)
  /-- The revision cannot be increased; the error is set next. -/
  | overflowed
  | ended
  deriving DecidableEq

/-- A `HotConfig` with its task.  `held` says that some clone of it is left, and `taken`
are the documents the view has parsed, latest first. -/
structure View (T : Type) where
  task : ViewTask T
  seen : Nat
  revision : Nat
  sender : Watch (ConfigSnapshot T)
  errorSender : Watch (Option ConfigError)
  held : Bool
  taken : List ConfigDocument

namespace View

variable {T : Type} (parse : ConfigDocument → Except ConfigError T)

/-- The documents a new view parses: the baseline, and the current one where it differs. -/
def inputs (baseline current : Option ConfigDocument) : List ConfigDocument :=
  baseline.toList ++ current.toList.filter fun d => baseline ≠ some d

/-- The last good value and the last error after one more document. -/
def good (acc : Option T × Option ConfigError) (document : ConfigDocument) :
    Option T × Option ConfigError :=
  match parse document with
  | .ok value => (some value, none)
  | .error e => (acc.1, some e)

/-- `typed` from the inputs of the publisher to the spawn of the task. -/
def typed (publisher : Publisher) (inRuntime : Bool) : Except ConfigError (View T) :=
  let current := publisher.sender.value
  if current.closed then .error handleClosed
  else
    let documents := inputs publisher.baseline current.document
    let (value, lastError) := documents.foldl (good parse) (none, none)
    match value with
    | none => .error (lastError.getD noInitialDocument)
    | some value =>
      if inRuntime then
        .ok {
          task := .select
          seen := publisher.sender.version
          revision := 1
          sender := .channel ⟨1, value⟩
          errorSender := .channel lastError
          held := true
          taken := documents.reverse }
      else .error (internalError .watch)

/-- The task takes the latest snapshot of the publisher and parses its document. -/
def take (v : View T) (raw : Watch RawSnapshot) : View T :=
  let v := { v with seen := raw.version }
  if raw.value.closed then { v with task := .ended }
  else
    match raw.value.document with
    | none => v
    | some document =>
      let v := { v with taken := document :: v.taken }
      match parse document with
      | .error e => { v with task := .rejected e }
      | .ok value =>
        match Usize.checkedAdd v.revision 1 with
        | none => { v with task := .overflowed }
        | some revision => { v with task := .accepted revision value }

/-- One step of the task, other than the one that ends it without views. -/
def next (v : View T) (raw : Watch RawSnapshot) : Option (View T) :=
  match v.task with
  | .select => if raw.changed v.seen then some (v.take parse raw) else none
  | .accepted revision value =>
    some { v with
      task := .sending revision value
      revision
      errorSender := v.errorSender.sendReplace none }
  | .sending revision value =>
    some { v with task := .select, sender := v.sender.sendReplace ⟨revision, value⟩ }
  | .rejected e =>
    some { v with task := .select, errorSender := v.errorSender.sendReplace (some e) }
  | .overflowed =>
    some { v with
      task := .ended
      errorSender := v.errorSender.sendReplace (some typedRevisionOverflowed) }
  | .ended => none

end View

/-! ## Threads -/

inductive CallKind where
  | publish (document : ConfigDocument)
  | activate
  | requestClose
  | typed
  /-- Not a call: the drop of the publisher's last `Arc`, which no step waits for. -/
  | dropPublisher
  /-- Not a call: the runtime, which polls the lifecycle worker or drops its task. -/
  | runtime
  deriving DecidableEq

/-- Where a call stands: the name says what it does next. -/
inductive Call (T : Type) where
  | publish (document : ConfigDocument)
  | published (r : ConfigResult)
  /-- `ensure_started`, before it reads the activation result. -/
  | activate
  | lockStart
  /-- It has the lock and reads `close_requested` next. -/
  | readRequested
  | spawnWorker
  /-- `finish_before_start`, before the lock. -/
  | lockFinish
  /-- `request_close`, before the swap. -/
  | requestClose
  | sendRequest
  | lockRequest
  /-- It has the lock and finishes the publisher next; `e` is the activation's result. -/
  | finish (e : ConfigError)
  | sendActivation (e : ConfigError)
  | sendClose
  | typed
  | inputs
  | view (v : View T)
  | failed (e : ConfigError)
  | dropPublisher
  | done
  | runtime

/-- `run` is the thread's own next step, with or without a Tokio runtime around it;
`drop` drops the last clone of a `HotConfig` and `closed` is the branch of `select!`
that sees this.  The others are the runtime's. -/
inductive Action where
  | run (inRuntime : Bool)
  | drop
  | closed
  | poll (provided : Provided)
  | abort

variable {T : Type} (parse : ConfigDocument → Except ConfigError T)

namespace Source

/-- The atomic steps. -/
def next (s : Source) : Call T → Action → Option (Source × Call T)
  | .publish document, .run _ =>
    match s.publisher.publish document with
    | .ok publisher => some ({ s with publisher }, .published (.ok ()))
    | .error e => some (s, .published (.error e))
  | .activate, .run inRuntime =>
    if s.activationResult.value.isSome then some (s, .done)
    else if inRuntime then some (s, .lockStart)
    else some (s, .lockFinish)
  | .lockStart, .run _ =>
    if s.locked then none
    else if s.start = .prepared then some ({ s with locked := true }, .readRequested)
    else some (s, .done)
  | .readRequested, .run _ =>
    if s.closeRequested then some ({ s with start := .finished }, .finish closedBeforeActivation)
    else some (s, .spawnWorker)
  | .spawnWorker, .run _ =>
    some ({ s with
      worker := ⟨.activating, s.closeRequest.version⟩
      start := .started
      locked := false }, .done)
  | .lockFinish, .run _ =>
    if s.locked then none
    else if s.start = .prepared then
      some ({ s with locked := true, start := .finished }, .finish (internalError .activate))
    else some (s, .done)
  | .requestClose, .run _ =>
    if s.closeRequested then some (s, .lockRequest)
    else some ({ s with closeRequested := true }, .sendRequest)
  | .sendRequest, .run _ =>
    some ({ s with closeRequest := s.closeRequest.sendReplace true }, .lockRequest)
  | .lockRequest, .run _ =>
    if s.locked then none
    else if s.start = .prepared then
      some ({ s with locked := true, start := .finished }, .finish closedBeforeActivation)
    else some (s, .done)
  | .finish e, .run _ => some (s.finish, .sendActivation e)
  | .sendActivation e, .run _ => some (s.sendActivation (.error e), .sendClose)
  | .sendClose, .run _ => some ({ s.sendClose (.ok ()) with locked := false }, .done)
  | .typed, .run _ =>
    match s.activationResult.value with
    | some (.ok ()) => some (s, .inputs)
    | some (.error e) => some (s, .failed e)
    | none => some (s, .failed notActivated)
  | .inputs, .run inRuntime =>
    match View.typed parse s.publisher inRuntime with
    | .ok v => some (s, .view v)
    | .error e => some (s, .failed e)
  | .view v, .run _ => (v.next parse s.publisher.sender).map fun v => (s, .view v)
  | .view v, .drop => some (s, .view { v with held := false })
  | .view v, .closed =>
    match v.task, v.held with
    | .select, false => some (s, .view { v with task := .ended })
    | _, _ => none
  | .dropPublisher, .run _ => some (s.finish, .done)
  | .runtime, .poll provided => (s.workerNext provided).map fun s => (s, .runtime)
  | .runtime, .abort => s.workerAbort.map fun s => (s, .runtime)
  | _, _ => none

end Source

def CallKind.start : CallKind → Call T
  | .publish document => .publish document
  | .activate => .activate
  | .requestClose => .requestClose
  | .typed => .typed
  | .dropPublisher => .dropPublisher
  | .runtime => .runtime

/-- A configuration source, everything that is published to it and its typed views. -/
def hot : Threads Source (Call T) CallKind Action where
  shared := .new
  start := CallKind.start
  next := Source.next parse

end Fusen.Config
