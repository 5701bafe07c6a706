import Fusen.Client.EndpointBreakers
import Fusen.Register.Directory

/-!
# The discovery supervisor (`client/subscription.rs`)

One supervisor serves a selector: it prepares a provider subscription, activates
it, forwards its snapshots to the directory of the client, closes it when it ends
and starts over after a delay.  `supervisor` is that loop, one step for each
stretch of code between two awaits, among everything else that can happen: time
passes, the runtime shuts down, providers publish or end, and other users of the
endpoint breakers work on them.  How an awaited operation ends, and when a timeout
fires, is the event's choice.  `Instant::now() + max_staleness` panics behind the
last instant there is, `lastInstant`, and ends the task: `max_staleness` is not checked.
-/

namespace Fusen.Client

open Lib Register

inductive SlotState where
  | initializing
  | ready
  | stale
  | unavailable
  | failed (e : RegistryError)
  | quarantined
  | closed
  deriving DecidableEq

/-! ## The forwarder -/

/-- The directory of the client, the state of its slot and the endpoint breakers, with
the stale deadline that is passed along with them. -/
structure DirectoryForwarder where
  publisher : DirectoryPublisher ServiceInstance
  state : SlotState
  endpointBreakers : EndpointBreakers
  staleDeadline : Option Nat

namespace DirectoryForwarder

/-- The state of the directory. -/
def directory (f : DirectoryForwarder) : DirectoryState := f.publisher.snapshot.state

/-- The result of the publication is ignored. -/
def publish (f : DirectoryForwarder) (state : DirectoryState)
    (instances : Option (List ServiceInstance)) : DirectoryForwarder :=
  match f.publisher.publish state instances with
  | .ok publisher => { f with publisher }
  | .error _ => f

def publishState (f : DirectoryForwarder) (state : DirectoryState) : DirectoryForwarder :=
  f.publish state none

/-- `replace_discovery`, then `publish_snapshot`. -/
def replace (f : DirectoryForwarder) (selector : ServiceSelector) (state : DirectoryState)
    (instances : List ServiceInstance) : DirectoryForwarder :=
  { f with endpointBreakers := f.endpointBreakers.replaceDiscovery selector instances }.publish
    state (some instances)

def send (f : DirectoryForwarder) (state : SlotState) : DirectoryForwarder := { f with state }

/-- What an operation leaves, where `error` is a panic in it. -/
def left : Except DirectoryForwarder DirectoryForwarder → DirectoryForwarder
  | .ok f | .error f => f

variable (selector : ServiceSelector) (now maxStaleness lastInstant : Nat)

/-- The deadline is set unless there is one; the sum panics where it is no instant. -/
def arm (f : DirectoryForwarder) : Except DirectoryForwarder DirectoryForwarder :=
  if f.staleDeadline.isNone then
    if now + maxStaleness ≤ lastInstant then
      .ok { f with staleDeadline := some (now + maxStaleness) }
    else .error f
  else .ok f

def disarm (f : DirectoryForwarder) : DirectoryForwarder := { f with staleDeadline := none }

def markDisconnected (f : DirectoryForwarder) : Except DirectoryForwarder DirectoryForwarder :=
  match f.directory with
  | .ready => ((f.publishState .stale).arm now maxStaleness lastInstant).map (·.send .stale)
  | .stale => (f.arm now maxStaleness lastInstant).map (·.send .stale)
  | .initializing => .ok ((f.publishState .unavailable).send .unavailable)
  | .unavailable | .closed => .ok f

def updateSnapshot (f : DirectoryForwarder) (snapshot : DirectorySnapshot ServiceInstance) :
    Except DirectoryForwarder DirectoryForwarder :=
  match snapshot.state with
  | .ready => .ok ((f.replace selector .ready snapshot.instances).disarm.send .ready)
  | .stale =>
    if f.directory = .ready ∨ f.directory = .stale then
      ((f.replace selector .stale snapshot.instances).arm now maxStaleness lastInstant).map
        (·.send .stale)
    else .ok ((f.replace selector .unavailable snapshot.instances).disarm.send .unavailable)
  | .unavailable =>
    .ok ((f.replace selector .unavailable snapshot.instances).disarm.send .unavailable)
  | .closed => f.markDisconnected now maxStaleness lastInstant
  | .initializing => .ok f

/-- `expire_stale`, and the deadline is gone. -/
def expireStale (f : DirectoryForwarder) : DirectoryForwarder :=
  if f.directory ≠ .stale then f.disarm
  else
    let f := f.publishState .unavailable
    if f.state = .ready ∨ f.state = .stale then (f.send .unavailable).disarm else f.disarm

def setProviderFailure (f : DirectoryForwarder) (e : RegistryError) : DirectoryForwarder :=
  if f.directory = .stale then f.send .stale
  else if f.directory = .initializing then (f.publishState .unavailable).send (.failed e)
  else f.send (.failed e)

def setRetryingState (f : DirectoryForwarder) : DirectoryForwarder :=
  match f.directory with
  | .initializing => f.send .initializing
  | .ready => f.send .ready
  | .stale => f.send .stale
  | .unavailable => f.send .unavailable
  | .closed => f.send .closed

end DirectoryForwarder

/-! ## The supervisor -/

/-- One provider subscription: the directory its handle has, what of it had been read
when the handle was made, whether its publisher has ended, and whether the close of the
handle has returned. -/
structure Generation where
  publisher : DirectoryPublisher ServiceInstance
  seen : Nat
  ended : Bool
  closed : Bool

def Generation.prepared (seen : Nat) : Generation := ⟨.directory, seen, false, false⟩

/-- What follows `close_generation`. -/
inductive AfterClose where
  /-- The activation was cut off by the shutdown. -/
  | exit
  /-- The activation failed or timed out. -/
  | reconnect
  /-- The loop over the snapshots has ended. -/
  | disconnected
  deriving DecidableEq

/-- Where the supervisor stands: what it awaits, or does next. -/
inductive SupervisorPhase where
  /-- The top of the loop. -/
  | top
  | activating
  /-- Awaits a change of the provider's directory behind the version `seen`. -/
  | watching (seen : Nat)
  /-- The directory has changed and is read next. -/
  | reading (seen : Nat)
  | closing (timedOut : Bool) (next : AfterClose)
  /-- Awaits the reconnect delay. -/
  | reconnecting
  /-- Behind the loop. -/
  | ending
  | ended
  /-- A panic has ended the task, with its handle and its publisher; the slot has another. -/
  | panicked
  deriving DecidableEq

/-- `updates` lists the generations whose snapshots were forwarded, latest first. -/
structure Supervisor where
  now : Nat
  shutdown : Bool
  forwarder : DirectoryForwarder
  generations : List Generation
  phase : SupervisorPhase
  terminalState : SlotState
  retained : Bool
  completion : Bool
  updates : List Nat

/-- How `prepare_subscription` ends. -/
inductive Prepared where
  | handle (seen : Nat)
  | failed (e : RegistryError)
  | panicked

/-- A step of the supervisor, with the end of what it awaits. -/
inductive SupervisorAction where
  | prepare (answer : Prepared)
  /-- The branch of a `select!`, or the check, that sees the shutdown. -/
  | cancelled
  | activated (r : RegistryResult)
  /-- The timeout of an activation or a close. -/
  | timedOut
  | changed
  | read
  | closed (r : RegistryResult)
  /-- The reconnect delay is over. -/
  | elapsed
  /-- The timer of the stale deadline. -/
  | expire
  | finish

inductive SupervisorEvent where
  | tick (duration : Nat)
  | shutdown
  /-- The provider of a generation publishes. -/
  | provide (generation : Nat) (state : DirectoryState) (instances : Option (List ServiceInstance))
  /-- It drops its publisher. -/
  | endProvider (generation : Nat)
  /-- Another user of the endpoint breakers. -/
  | breakers (event : BreakersEvent)
  | act (action : SupervisorAction)

def BreakersEvent.changes (event : BreakersEvent) (selector : ServiceSelector) : Bool :=
  match event with
  | .replaceDiscovery s _ | .removeDiscovery s => s = selector
  | .lookup _ _ _ => false

namespace SupervisorPhase

/-- A future is awaited, with the stale deadline next to it. -/
def awaits : SupervisorPhase → Bool
  | .activating | .watching _ | .closing _ _ | .reconnecting => true
  | .top | .reading _ | .ending | .ended | .panicked => false

/-- The close of the last generation has not returned, or was never awaited. -/
def hasOpen : SupervisorPhase → Bool
  | .activating | .watching _ | .reading _ | .closing _ _ | .panicked => true
  | .top | .reconnecting | .ending | .ended => false

/-- The task is still there. -/
def running : SupervisorPhase → Bool
  | .ended | .panicked => false
  | .top | .activating | .watching _ | .reading _ | .closing _ _ | .reconnecting | .ending => true

end SupervisorPhase

namespace Supervisor

def new (now : Nat) (endpointBreakers : EndpointBreakers) : Supervisor where
  now := now
  shutdown := false
  forwarder := ⟨.directory, .initializing, endpointBreakers, none⟩
  generations := []
  phase := .top
  terminalState := .closed
  retained := true
  completion := false
  updates := []

def goto (s : Supervisor) (phase : SupervisorPhase) : Supervisor := { s with phase }

def forward (s : Supervisor) (f : DirectoryForwarder → DirectoryForwarder) : Supervisor :=
  { s with forwarder := f s.forwarder }

/-- The generation whose handle the supervisor has. -/
def current (s : Supervisor) : Option Generation := s.generations.getLast?

/-- The close of the current handle has returned. -/
def closeCurrent (s : Supervisor) : Supervisor :=
  { s with
    generations := s.generations.modify (s.generations.length - 1) fun g => { g with closed := true } }

def fail (s : Supervisor) (state : SlotState) : Supervisor :=
  { s.forward (·.send state) with terminalState := state }

/-- An operation that may panic; `phase` is behind it. -/
def attempt (s : Supervisor)
    (operation : DirectoryForwarder → Except DirectoryForwarder DirectoryForwarder)
    (phase : SupervisorPhase) : Supervisor :=
  { s with
    forwarder := .left (operation s.forwarder)
    phase := if (operation s.forwarder).isOk then phase else .panicked }

variable (selector : ServiceSelector) (maxStaleness lastInstant : Nat)

/-- A snapshot of the current generation is forwarded. -/
def update (s : Supervisor) (snapshot : DirectorySnapshot ServiceInstance)
    (phase : SupervisorPhase) : Supervisor :=
  { s.attempt (·.updateSnapshot selector s.now maxStaleness lastInstant snapshot) phase with
    updates := (s.generations.length - 1) :: s.updates }

/-- Behind the loop. -/
def finish (s : Supervisor) : Supervisor :=
  let s := s.forward (·.send s.terminalState)
  let s :=
    if s.shutdown then s
    else
      { s.forward fun f =>
          { f with endpointBreakers := f.endpointBreakers.removeDiscovery selector } with
        retained := false }
  let s :=
    if s.retained then s else s.forward fun f => { f with publisher := f.publisher.dropped }
  { s.goto .ended with completion := true }

/-- `run_subscription`, from one await to the next. -/
def next (s : Supervisor) : SupervisorAction → Option Supervisor
  | .cancelled =>
    if s.shutdown then
      match s.phase with
      | .top | .reconnecting => some (s.goto .ending)
      | .activating => some (s.goto (.closing false .exit))
      | .watching _ => some (s.goto (.closing false .disconnected))
      | _ => none
    else none
  | .prepare answer =>
    if s.shutdown ∨ s.phase ≠ .top then none
    else
      match answer with
      | .handle seen =>
        some { s.goto .activating with generations := s.generations ++ [.prepared seen] }
      | .failed e => some ((s.forward (·.setProviderFailure e)).goto .reconnecting)
      | .panicked => some ((s.fail .quarantined).goto .ending)
  | .activated r =>
    if s.shutdown ∨ s.phase ≠ .activating then none
    else
      match r, s.current with
      | .ok, some g =>
        some (s.update selector maxStaleness lastInstant g.publisher.snapshot (.watching g.seen))
      | .ok, none => none
      | .err e, _ =>
        some ((s.forward (·.setProviderFailure e)).goto (.closing false .reconnect))
  | .timedOut =>
    match s.phase with
    | .activating =>
      if s.shutdown then none
      else
        some (s.attempt
          (fun f => (f.markDisconnected s.now maxStaleness lastInstant).map (·.send .quarantined))
          (.closing false .reconnect))
    | .closing false next => some ((s.forward (·.send .quarantined)).goto (.closing true next))
    | _ => none
  | .changed =>
    if s.shutdown then none
    else
      match s.phase, s.current with
      | .watching seen, some g =>
        if g.publisher.sender.changed seen then some (s.goto (.reading g.publisher.sender.version))
        else if g.ended then
          some (s.attempt (·.markDisconnected s.now maxStaleness lastInstant)
            (.closing false .disconnected))
        else none
      | _, _ => none
  | .read =>
    match s.phase, s.current with
    | .reading seen, some g =>
      some (s.update selector maxStaleness lastInstant g.publisher.snapshot (.watching seen))
    | _, _ => none
  | .closed r =>
    match s.phase, r with
    | .closing _ _, .err e => some ((s.closeCurrent.fail (.failed e)).goto .ending)
    | .closing _ .exit, .ok => some (s.closeCurrent.goto .ending)
    | .closing _ .reconnect, .ok => some (s.closeCurrent.goto .reconnecting)
    | .closing _ .disconnected, .ok =>
      if s.shutdown then some (s.closeCurrent.goto .ending)
      else some (s.closeCurrent.goto .reconnecting)
    | _, _ => none
  | .elapsed =>
    if s.shutdown ∨ s.phase ≠ .reconnecting then none
    else some ((s.forward (·.setRetryingState)).goto .top)
  | .expire =>
    match s.forwarder.staleDeadline with
    | some deadline =>
      if s.phase.awaits ∧ deadline ≤ s.now then some (s.forward (·.expireStale)) else none
    | none => none
  | .finish => if s.phase = .ending then some (s.finish selector) else none

/-- A generation's provider does something with its publisher, as long as it has it. -/
def provider (s : Supervisor) (generation : Nat) (f : Generation → Generation) : Supervisor :=
  { s with generations := s.generations.modify generation fun g => if g.ended then g else f g }

def step (s : Supervisor) : SupervisorEvent → Supervisor
  | .tick duration => { s with now := s.now + duration }
  | .shutdown => { s with shutdown := true }
  | .provide generation state instances =>
    s.provider generation fun g =>
      match g.publisher.publish state instances with
      | .ok publisher => { g with publisher }
      | .error _ => g
  | .endProvider generation =>
    s.provider generation fun g => { g with publisher := g.publisher.dropped, ended := true }
  | .breakers event =>
    if event.changes selector then s
    else s.forward fun f => { f with endpointBreakers := f.endpointBreakers.step event }
  | .act action => (s.next selector maxStaleness lastInstant action).getD s

end Supervisor

def supervisor (selector : ServiceSelector)
    (maxStaleness lastInstant now maxEntries idleEviction : Nat) :
    Machine Supervisor SupervisorEvent where
  init := .new now (.new maxEntries idleEviction)
  step := .step selector maxStaleness lastInstant

end Fusen.Client
