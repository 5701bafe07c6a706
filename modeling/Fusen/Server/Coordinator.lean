import Fusen.Runtime.Admission
import Fusen.Server.Pipeline
import Fusen.Server.Transport

/-!
# The server coordinator (`server/mod.rs`)

`coordinate` starts the accept supervisor, prepares and activates the registrations, serves,
and drains.  `Running` is what it shares with the supervisor, the requests at the admission
gate, the registries and whoever holds a handle of the server; `server` is the machine of all
of them, whose runs are all interleavings of their steps.

A poll of the coordinator does what the source does between two points where others can act,
so each store and each message is a step of its own.
-/

namespace Fusen.Server

open Lib Contract Register Fusen.Runtime

/-- `ServerState`, in the order of its codes. -/
inductive ServerState
  | validated | acceptingNotReady | registering | ready | draining | stopped
deriving DecidableEq, Repr

def ServerState.asU8 : ServerState → Nat
  | validated => 0
  | acceptingNotReady => 1
  | registering => 2
  | ready => 3
  | draining => 4
  | stopped => 5

/-- The codes `NOT_READY`, `READY`, `DRAINING` and `STOPPED`. -/
def Readiness.asU8 : Readiness → Nat
  | notReady => 0
  | ready => 1
  | draining => 2
  | stopped => 3

/-! ## Registrations -/

/-- What `prepare_registration` makes of a request. -/
inductive Preparation
  | handle
  | rejected (e : RegistryError)
  | panicked

structure PlannedRegistration where
  name : Text
  preparation : Preparation

/-- An operation of a handle: not asked for, under way, or done. -/
inductive Operation
  | idle
  | pending
  | done (result : RegistryResult)
deriving DecidableEq

def Operation.request : Operation → Operation
  | idle => pending
  | operation => operation

/-- What the registry knows of a registration. -/
structure Handle where
  name : Text
  activation : Operation
  close : Operation

/-- What a server is started with. -/
structure Setup where
  registrations : List PlannedRegistration
  /-- `max_concurrent_operations` of the registries. -/
  concurrency : Nat
  maxConnections : PermitCount
  maxConcurrentRequests : PermitCount
  concurrency_pos : 0 < concurrency

def startupCancelled : ServerError := .fromMessage .startup "server startup was cancelled"

def startupAcceptFailed : ServerError :=
  .fromMessage .accept "HTTP accept supervisor failed before the server reached Ready"

def startupDeadlineElapsed : ServerError :=
  .fromMessage .startup "server did not reach Ready before the startup deadline"

def preparationRejected (name : Text) (e : RegistryError) : ServerError :=
  ⟨.registry, "registry ".toList ++ name ++ " rejected registration preparation".toList,
    some (.registry e)⟩

def preparationPanicked (name : Text) : ServerError :=
  ⟨.registry, "registry ".toList ++ name ++ " panicked while preparing registration".toList, none⟩

def activationFailed (name : Text) (e : RegistryError) : ServerError :=
  ⟨.registry, "registry ".toList ++ name ++ " failed to activate registration".toList,
    some (.registry e)⟩

def activationTimedOut (name : Text) : ServerError :=
  ⟨.registry, "registry ".toList ++ name ++ " registration activation timed out".toList, none⟩

/-! ## The coordinator -/

/-- The loop of `close_registrations`: before a batch, in one, or past the last.  A batch
keeps what has become of each of its closes. -/
inductive Closes
  | batches (rest : List (List Nat)) (outcome : CloseOutcome)
  | batch (results : List (Nat × Option (Option RegistryResult))) (rest : List (List Nat))
      (outcome : CloseOutcome)
  | done (outcome : CloseOutcome)

/-- Where `drain_runtime` stands. -/
inductive DrainStage
  | storing
  | beginning
  /-- `begin_draining`, as a call at the gate. -/
  | closing (call : Nat)
  | sending
  | listener
  | publishing
  /-- The `join!` of the closes, the call of `drained` and the supervisor's outcome. -/
  | working (listenerError : Option ServerError) (closes : Closes) (drained : Nat)
      (accept : Option (Option AcceptOutcome))

/-- Where `coordinate` stands, once it has started the supervisor. -/
inductive Coordinator
  | accepting
  | registering
  /-- The registration `n` is prepared next. -/
  | preparing (n : Nat)
  /-- The `select!` with the activation of the registrations. -/
  | activating (prepared : Except ServerError Unit) (waiting running : List Nat)
  | storingReady
  | settingReady
  | announcing
  | serving
  /-- `drain_runtime`, after a failed startup or without. -/
  | draining (startupError : Option ServerError) (fatal : Option Text) (stage : DrainStage)
  | failing (result : Except ServerError Unit)
  | storingStopped (result : Except ServerError Unit)
  | settingStopped (result : Except ServerError Unit)
  | completing (result : Except ServerError Unit)
  | finished

/-- What follows `drain_runtime`; after a failed startup the error of the drain counts if it is
a timeout or comes from the supervisor. -/
def endOfDrain (startupError : Option ServerError) (result : Except ServerError Unit) : Coordinator :=
  match startupError with
  | none => .storingStopped result
  | some startupError =>
    match result with
    | .ok () => .failing (.error startupError)
    | .error e =>
      if e.kind = .timeout ∨ e.kind = .accept then .failing (.error e)
      else .failing (.error startupError)

/-- A server that runs. -/
structure Running where
  state : ServerState
  readiness : Readiness
  admission : Pool AdmissionGate AdmissionGate.Call
  shutdown : Bool
  forceCancel : Bool
  /-- The clock has passed the deadline of the startup, or of the drain. -/
  startupElapsed : Bool
  drainElapsed : Bool
  /-- A `DrainCommand` is queued. -/
  command : Bool
  /-- What was sent to `start`, and to everybody who waits. -/
  startup : Option (Except ServerError Unit)
  completion : Option (Except ServerError Unit)
  transport : Transport
  handles : List Handle
  coordinator : Coordinator

/-- What wakes the coordinator: shared state, an operation of a handle, or its timer. -/
inductive Wake
  | poll
  | future (i : Nat)
  | timer (i : Nat)

namespace Running

variable (setup : Setup) (s : Running)

def new : Running where
  state := .validated
  readiness := .notReady
  admission := ⟨.new setup.maxConcurrentRequests, []⟩
  shutdown := false
  forceCancel := false
  startupElapsed := false
  drainElapsed := false
  command := false
  startup := none
  completion := none
  transport := .new setup.maxConnections
  handles := []
  coordinator := .accepting

/-- One atomic step of a call at the gate. -/
def stepGate (i : Nat) (e : AdmissionGate.Action) : Running :=
  { s with admission := (gate setup.maxConcurrentRequests).step s.admission (.act i e) }

def spawnGate (kind : AdmissionGate.Kind) : Running :=
  { s with admission := (gate setup.maxConcurrentRequests).step s.admission (.spawn kind) }

/-! ### Startup -/

/-- The next registration of `prepare_registrations`. -/
def prepare (n : Nat) : Running :=
  match setup.registrations[n]? with
  | none => { s with coordinator := .activating (.ok ()) (List.range n) [] }
  | some planned =>
    match planned.preparation with
    | .handle =>
      { s with
        handles := s.handles ++ [⟨planned.name, .idle, .idle⟩]
        coordinator := .preparing (n + 1) }
    | .rejected e =>
      { s with coordinator := .activating (.error (preparationRejected planned.name e)) [] [] }
    | .panicked =>
      { s with coordinator := .activating (.error (preparationPanicked planned.name)) [] [] }

def requestCloses (batch : List Nat) : List Handle :=
  batch.foldl (fun handles i => handles.modify i fun h =>
    { h with close := h.close.request }) s.handles

/-- `drain_runtime` after a failed startup.  Its `select!` drops the activations that are under
way, and each of them asks for its close. -/
def fail (dropped : List Nat) (error : ServerError) (fatal : Option Text) : Running :=
  { s with
    handles := s.requestCloses dropped
    coordinator := .draining (some error) fatal .storing }

/-- The activation `i` has ended. -/
def activated (i : Nat) : Bool :=
  match s.handles[i]? with
  | some h => match h.activation with
    | .done _ => true
    | _ => false
  | none => false

/-- What `operations.next()` yields if anything: the future that woke it, or any other that
is ready. -/
def nextActivation (running : List Nat) (wake : Wake) : Option Nat :=
  match wake with
  | .future i =>
    if i ∈ running ∧ s.activated i = true then some i else running.find? s.activated
  | .timer i => if i ∈ running then some i else running.find? s.activated
  | .poll => running.find? s.activated

def requestActivations (started : List Nat) : Running :=
  { s with handles := started.foldl (fun handles i => handles.modify i fun h =>
      { h with activation := h.activation.request }) s.handles }

/-- A result of `activate_registrations`: what has become of the activation `i`. -/
def takeActivation (i : Nat) : Except ServerError Unit :=
  match s.handles[i]? with
  | none => .ok ()
  | some h =>
    match h.activation with
    | .done .ok => .ok ()
    | .done (.err e) => .error (activationFailed h.name e)
    | _ => .error (activationTimedOut h.name)

/-- A poll of the activation. -/
def activate (waiting running : List Nat) (wake : Wake) : Running :=
  let started := waiting.take (setup.concurrency - running.length)
  let waiting := waiting.drop (setup.concurrency - running.length)
  let running := running ++ started
  let s := s.requestActivations started
  match s.nextActivation running wake with
  | some i =>
    match s.takeActivation i with
    | .ok () => { s with coordinator := .activating (.ok ()) waiting (running.erase i) }
    | .error e =>
      -- an activation that has ended is let go, one that has timed out is dropped
      s.fail (if s.activated i then running.erase i else running) e none
  | none =>
    if waiting = [] ∧ running = [] then { s with coordinator := .storingReady }
    else if s.startupElapsed then s.fail running startupDeadlineElapsed none
    else { s with coordinator := .activating (.ok ()) waiting running }

/-- The `select!` of the startup. -/
def startUp (prepared : Except ServerError Unit) (waiting running : List Nat) (wake : Wake) :
    Running :=
  if s.shutdown then s.fail running startupCancelled none
  else
    match s.transport.recvFatal with
    | some error =>
      { s with transport := { s.transport with fatal := none } }.fail running startupAcceptFailed
        error
    | none =>
      match prepared with
      | .error e => s.fail running e none
      | .ok () => s.activate setup waiting running wake

/-! ### The drain -/

def closed (i : Nat) : Option RegistryResult :=
  match s.handles[i]? with
  | some h => match h.close with
    | .done r => some r
    | _ => none
  | none => none

/-- What the close `i` of a batch has come to: its result, or its timeout. -/
def closeResult (wake : Wake) (i : Nat) : Option (Option RegistryResult) :=
  match s.closed i with
  | some r => some (some r)
  | none =>
    match wake with
    | .timer j => if i = j ∨ s.drainElapsed = true then some none else none
    | _ => if s.drainElapsed then some none else none

/-- A poll of `close_registrations`, if it can go on. -/
def pollCloses (wake : Wake) : Closes → Option (List Handle × Closes)
  | .done _ => none
  | .batches [] outcome => some (s.handles, .done outcome)
  | .batches (batch :: rest) outcome =>
    if s.drainElapsed then some (s.handles, .done { outcome with timedOut := true })
    else some (s.requestCloses batch, .batch (batch.map fun i => (i, none)) rest outcome)
  | .batch results rest outcome =>
    let results' := results.map fun x => (x.1, x.2.or (s.closeResult wake x.1))
    if results'.all fun x => x.2.isSome then
      some (s.handles, .batches rest ((results'.filterMap Prod.snd).foldl CloseOutcome.record outcome))
    else if results'.map (fun x => x.2.isSome) = results.map fun x => x.2.isSome then none
    else some (s.handles, .batch results' rest outcome)

/-- The call `i` at the gate has returned. -/
def returned (i : Nat) : Bool :=
  match s.admission.threads[i]? with
  | some (.finished _) => true
  | _ => false

/-- The call `i` at the gate can take a step. -/
def canStep (i : Nat) : Bool :=
  match s.admission.threads[i]? with
  | some call => (AdmissionGate.next s.admission.shared call .run).isSome
  | none => false

/-- A poll of the `work` of `drain_runtime` from its `join!` on. -/
def work (startupError : Option ServerError) (fatal : Option Text)
    (listenerError : Option ServerError) (closes : Closes) (call : Nat)
    (accept : Option (Option AcceptOutcome)) (wake : Wake) : Running :=
  match s.pollCloses wake closes with
  | some (handles, closes) =>
    { s with
      handles
      coordinator := .draining startupError fatal (.working listenerError closes call accept) }
  | none =>
    if s.canStep call then s.stepGate setup call .run
    else
      match accept, s.transport.completion with
      | none, some outcome =>
        { s with
          coordinator := .draining startupError fatal
            (.working listenerError closes call (some outcome)) }
      | accept, _ =>
        match closes, s.returned call, accept with
        | .done registry, true, some outcome =>
          { s with
            coordinator := endOfDrain startupError
              (resolveShutdownResult registry (acceptCompletion outcome) fatal listenerError) }
        | _, _, _ =>
          if s.drainElapsed then
            { s.stepGate setup call .cancel with
              forceCancel := true
              coordinator := endOfDrain startupError (.error deadlineElapsed) }
          else s

/-- A poll of `drain_runtime`. -/
def drain (startupError : Option ServerError) (fatal : Option Text) (wake : Wake) :
    DrainStage → Running
  | .storing =>
    { s with readiness := .draining, coordinator := .draining startupError fatal .beginning }
  | .beginning =>
    { s.spawnGate setup .beginDraining with
      coordinator := .draining startupError fatal (.closing s.admission.threads.length) }
  | .closing call =>
    if s.returned call then { s with coordinator := .draining startupError fatal .sending }
    else s.stepGate setup call .run
  | .sending =>
    { s with command := true, coordinator := .draining startupError fatal .listener }
  | .listener =>
    match s.transport.listenerClosed with
    | some true => { s with coordinator := .draining startupError fatal .publishing }
    | some false =>
      { s.spawnGate setup .drained with
        coordinator := .draining startupError fatal (.working
          (publishDrainingAfterListenerClosed false)
          (.batches ((List.range s.handles.length).reverse.toChunks setup.concurrency)
            ⟨false, none⟩) s.admission.threads.length none) }
    | none =>
      if s.drainElapsed then
        { s with
          forceCancel := true
          coordinator := endOfDrain startupError (.error deadlineElapsed) }
      else s
  | .publishing =>
    { s.spawnGate setup .drained with
      state := .draining
      coordinator := .draining startupError fatal (.working
        (publishDrainingAfterListenerClosed true)
        (.batches ((List.range s.handles.length).reverse.toChunks setup.concurrency)
          ⟨false, none⟩) s.admission.threads.length none) }
  | .working listenerError closes call accept =>
    s.work setup startupError fatal listenerError closes call accept wake

/-! ### The steps -/

/-- A poll of `coordinate`. -/
def poll (wake : Wake) : Running :=
  match s.coordinator with
  | .accepting => { s with state := .acceptingNotReady, coordinator := .registering }
  | .registering => { s with state := .registering, coordinator := .preparing 0 }
  | .preparing n => s.prepare setup n
  | .activating prepared waiting running => s.startUp setup prepared waiting running wake
  | .storingReady => { s with readiness := .ready, coordinator := .settingReady }
  | .settingReady => { s with state := .ready, coordinator := .announcing }
  | .announcing => { s with startup := some (.ok ()), coordinator := .serving }
  | .serving =>
    if s.shutdown then { s with coordinator := .draining none none .storing }
    else
      match s.transport.recvFatal with
      | some error =>
        { s with
          transport := { s.transport with fatal := none }
          coordinator := .draining none error .storing }
      | none => s
  | .draining startupError fatal stage => s.drain setup startupError fatal wake stage
  | .failing result =>
    { s with startup := some result, coordinator := .storingStopped result }
  | .storingStopped result => { s with readiness := .stopped, coordinator := .settingStopped result }
  | .settingStopped result => { s with state := .stopped, coordinator := .completing result }
  | .completing result => { s with completion := some result, coordinator := .finished }
  | .finished => s

/-- The call at the gate that is the coordinator's own. -/
def ownCall : Option Nat :=
  match s.coordinator with
  | .draining _ _ (.closing call) => some call
  | .draining _ _ (.working _ _ call _) => some call
  | _ => none

/-- The deadline of the drain is set. -/
def hasDeadline : Bool :=
  match s.coordinator with
  | .draining _ _ .sending | .draining _ _ .listener | .draining _ _ .publishing
  | .draining _ _ (.working ..) => true
  | _ => false

def inbox : Inbox where
  command := s.command
  disconnected := match s.coordinator with
    | .finished => true
    | _ => false
  forceCancel := s.forceCancel
  deadlineElapsed := s.drainElapsed

end Running

/-- What can happen. -/
inductive ServerEvent
  | coordinator (wake : Wake)
  | transport (wake : AcceptWake)
  /-- The task of the supervisor is dropped. -/
  | transportDies
  | connectionEnds (i : Nat)
  | streamStarts (i : Nat)
  | streamEnds
  /-- A request passes the readiness check and comes to the gate. -/
  | request
  /-- The request whose `try_enter` was the call `i` has found a place in the queue. -/
  | queued (i : Nat)
  | call (i : Nat) (e : AdmissionGate.Action)
  /-- A handle was asked to shut down or the running server was dropped. -/
  | shutdown
  | startupElapses
  | deadlineElapses
  | activationEnds (i : Nat) (r : RegistryResult)
  | closeEnds (i : Nat) (r : RegistryResult)

namespace Running

def step (setup : Setup) (s : Running) : ServerEvent → Running
  | .coordinator wake => s.poll setup wake
  | .transport wake =>
    let (transport, inbox) := s.transport.poll s.inbox wake
    { s with transport, command := inbox.command, forceCancel := inbox.forceCancel }
  | .transportDies => { s with transport := s.transport.die, command := false }
  | .connectionEnds i => { s with transport := s.transport.endConnection i }
  | .streamStarts i => { s with transport := s.transport.startStream i }
  | .streamEnds => { s with transport := s.transport.endStream }
  | .request => if s.readiness = .ready then s.spawnGate setup .tryEnter else s
  | .queued i =>
    if s.admission.threads[i]? = some (.finished (.error .overloaded)) then s.spawnGate setup .enter
    else s
  | .call i e => if s.ownCall = some i then s else s.stepGate setup i e
  | .shutdown => { s with shutdown := true }
  | .startupElapses => { s with startupElapsed := true }
  | .deadlineElapses => if s.hasDeadline then { s with drainElapsed := true } else s
  | .activationEnds i r =>
    { s with handles := s.handles.modify i fun h =>
        if h.activation = .pending then { h with activation := .done r } else h }
  | .closeEnds i r =>
    { s with handles := s.handles.modify i fun h =>
        if h.close = .pending then { h with close := .done r } else h }

end Running

/-- The server as a whole. -/
def server (setup : Setup) : Machine Running ServerEvent where
  init := .new setup
  step := Running.step setup

end Fusen.Server
