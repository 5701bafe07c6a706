import Mathlib.Data.List.Sort
import Fusen.Client.Subscription
import Fusen.Runtime.Draining

/-!
# The shutdown of a client (`client/runtime.rs`)

`client_shutdown_coordinator` drains a client: it closes admission and the subscriptions, waits
for the admitted invocations and for the subscription supervisors under one deadline, and closes
the connection pool.  `ClientRuntime` is what it shares with them, and `client` the machine of
all of them, whose runs are all interleavings of their steps.
-/

namespace Fusen.Client

open Lib Register Fusen.Runtime

inductive ClientState
  | running | draining | closed
deriving DecidableEq, Repr

/-- The codes `CLIENT_RUNNING`, `CLIENT_DRAINING` and `CLIENT_CLOSED`. -/
def ClientState.asU8 : ClientState → Nat
  | running => 0
  | draining => 1
  | closed => 2

inductive ClientErrorKind
  | build | connect | discovery | closed | timeout | shutdown
deriving DecidableEq, Repr

structure ClientError where
  kind : ClientErrorKind
  message : Text
  source : Option RegistryError
deriving DecidableEq

/-! ## Subscriptions -/

/-- The `completion` of a slot; its sender may be dropped without a value. -/
inductive Completion
  | pending | completed | dropped
deriving DecidableEq, Repr

structure Slot (κ : Type) where
  key : κ
  state : SlotState
  completion : Completion

/-- The slots are in the order in which they came. -/
structure SubscriptionManager (κ : Type) where
  slots : List (Slot κ)
  closed : Bool

def supervisorEnded : RegistryError :=
  ⟨.closeSubscription, .cleanupAborted,
    "subscription supervisor ended without a terminal result".toList⟩

/-- `wait_for_slot_completion`, if it is ready. -/
def Slot.outcome {κ : Type} (slot : Slot κ) : Option (Except RegistryError Unit) :=
  match slot.completion with
  | .pending => none
  | .dropped => some (.error supervisorEnded)
  | .completed =>
    match slot.state with
    | .failed e => some (.error e)
    | _ => some (.ok ())

namespace SubscriptionManager

variable {κ : Type} [LinearOrder κ]

def new : SubscriptionManager κ := ⟨[], false⟩

/-- The part of `acquire` under the lock. -/
def acquire (manager : SubscriptionManager κ) (maxSubscriptions : Nat) (key : κ) :
    SubscriptionManager κ :=
  if manager.closed then manager
  else if key ∈ manager.slots.map Slot.key then manager
  else if manager.slots.length ≥ maxSubscriptions then manager
  else { manager with slots := manager.slots ++ [⟨key, .initializing, .pending⟩] }

/-- What the supervisor of a slot does as long as it runs. -/
def supervise (manager : SubscriptionManager κ) (key : κ) (f : Slot κ → Slot κ) :
    SubscriptionManager κ :=
  { manager with slots := manager.slots.map fun slot =>
      if slot.key = key ∧ slot.completion = .pending then f slot else slot }

def beginShutdown (manager : SubscriptionManager κ) : SubscriptionManager κ :=
  { manager with closed := true }

/-- The slots that `closed` waits for, sorted by their keys. -/
def collect (manager : SubscriptionManager κ) : List κ :=
  (manager.slots.map Slot.key).insertionSort (· ≤ ·)

def outcome (manager : SubscriptionManager κ) (key : κ) : Option (Except RegistryError Unit) :=
  (manager.slots.find? fun slot => slot.key = key).bind Slot.outcome

/-- `join_all`, once every slot has its outcome. -/
def joinAll (manager : SubscriptionManager κ) (keys : List κ) :
    Option (List (Except RegistryError Unit)) :=
  keys.mapM manager.outcome

end SubscriptionManager

def firstError (outcomes : List (Except RegistryError Unit)) : Option RegistryError :=
  outcomes.findSome? fun outcome =>
    match outcome with
    | .error e => some e
    | .ok _ => none

def closeFailed (e : RegistryError) : ClientError :=
  ⟨.shutdown, "failed to close discovery subscription".toList, some e⟩

/-- What the subscriptions contribute to the result. -/
def closedResult (outcomes : List (Except RegistryError Unit)) : Except ClientError Unit :=
  match firstError outcomes with
  | some e => .error (closeFailed e)
  | none => .ok ()

def deadlineElapsed : ClientError :=
  ⟨.timeout, "client graceful shutdown deadline elapsed".toList, none⟩

/-! ## The coordinator -/

/-- `subscriptions.closed()`. -/
inductive Closing (κ : Type)
  | collecting
  | waiting (keys : List κ)
  | done (result : Except ClientError Unit)

/-- Where `client_shutdown_coordinator` stands. -/
inductive Coordinator (κ : Type)
  | waiting
  | storing
  | beginning
  /-- `begin_draining`, as a call at the gate. -/
  | closing (call : Nat)
  | subscribing
  | joining
  /-- The `join!` of `drained`, as long as the pool is not closed, and `closed`. -/
  | working (drained : Option Nat) (closing : Closing κ)
  /-- The deadline has elapsed. -/
  | forcing
  | dropping
  | finishing (result : Except ClientError Unit)
  /-- `close`, as a call at the gate. -/
  | closingGate (call : Nat) (result : Except ClientError Unit)
  | storingClosed (result : Except ClientError Unit)
  | completing (result : Except ClientError Unit)
  | finished

/-- The parts of the configuration that matter here. -/
structure Setup where
  maxInFlight : PermitCount
  maxSubscriptions : Nat
  /-- There is a registry. -/
  discovery : Bool

/-- An invocation that asked for the pool: whether it was cancelled by force, and whether it
was given the pool. -/
structure PoolAccess where
  cancelled : Bool
  given : Bool

structure ClientRuntime (κ : Type) where
  state : ClientState
  shutdown : Bool
  forceCancel : Bool
  /-- The clock has passed the deadline of the shutdown. -/
  elapsed : Bool
  admission : Pool AdmissionGate AdmissionGate.Call
  subscriptions : Option (SubscriptionManager κ)
  /-- The pool is there. -/
  transport : Bool
  accesses : List PoolAccess
  completion : Option (Except ClientError Unit)
  coordinator : Coordinator κ

/-- What can happen. -/
inductive ClientEvent (κ : Type)
  | coordinator
  /-- An invocation passes the check of the state and comes to the gate. -/
  | invoke
  /-- The invocation whose `try_enter` was the call `i` has found a place in the queue. -/
  | queued (i : Nat)
  | call (i : Nat) (e : AdmissionGate.Action)
  /-- The invocation admitted by the call `i` asks for the pool. -/
  | transport (i : Nat)
  | acquire (key : κ)
  | slotState (key : κ) (state : SlotState)
  | slotCompleted (key : κ)
  | slotDropped (key : κ)
  | shutdown
  | deadlineElapses

namespace ClientRuntime

variable {κ : Type} [LinearOrder κ] (setup : Setup) (s : ClientRuntime κ)

def new : ClientRuntime κ where
  state := .running
  shutdown := false
  forceCancel := false
  elapsed := false
  admission := ⟨.new setup.maxInFlight, []⟩
  subscriptions := if setup.discovery then some .new else none
  transport := true
  accesses := []
  completion := none
  coordinator := .waiting

def stepGate (i : Nat) (e : AdmissionGate.Action) : ClientRuntime κ :=
  { s with admission := (gate setup.maxInFlight).step s.admission (.act i e) }

def spawnGate (kind : AdmissionGate.Kind) : ClientRuntime κ :=
  { s with admission := (gate setup.maxInFlight).step s.admission (.spawn kind) }

def returned (i : Nat) : Bool :=
  match s.admission.threads[i]? with
  | some (.finished _) => true
  | _ => false

def canStep (i : Nat) : Bool :=
  match s.admission.threads[i]? with
  | some call => (AdmissionGate.next s.admission.shared call .run).isSome
  | none => false

/-- A poll of `subscriptions.closed()`, if it can go on. -/
def pollClosing : Closing κ → Option (Closing κ)
  | .done _ => none
  | .collecting =>
    match s.subscriptions with
    | some manager => some (.waiting manager.collect)
    | none => some (.done (.ok ()))
  | .waiting keys =>
    match s.subscriptions with
    | some manager => (manager.joinAll keys).map fun outcomes => .done (closedResult outcomes)
    | none => none

/-- A poll of the `work` that `timeout_at` limits. -/
def work (drained : Option Nat) (closing : Closing κ) : ClientRuntime κ :=
  match drained with
  | some call =>
    if s.canStep call then s.stepGate setup call .run
    else if s.returned call then
      { s with transport := false, coordinator := .working none closing }
    else
      match s.pollClosing closing with
      | some closing => { s with coordinator := .working (some call) closing }
      | none =>
        if s.elapsed then { s.stepGate setup call .cancel with coordinator := .forcing } else s
  | none =>
    match s.pollClosing closing with
    | some closing => { s with coordinator := .working none closing }
    | none =>
      match closing with
      | .done result => { s with coordinator := .finishing result }
      | _ => if s.elapsed then { s with coordinator := .forcing } else s

/-- A poll of the coordinator. -/
def poll : ClientRuntime κ :=
  match s.coordinator with
  | .waiting => if s.shutdown then { s with coordinator := .storing } else s
  | .storing => { s with state := .draining, coordinator := .beginning }
  | .beginning =>
    { s.spawnGate setup .beginDraining with coordinator := .closing s.admission.threads.length }
  | .closing call =>
    if s.returned call then { s with coordinator := .subscribing } else s.stepGate setup call .run
  | .subscribing =>
    { s with
      subscriptions := s.subscriptions.map SubscriptionManager.beginShutdown
      coordinator := .joining }
  | .joining =>
    { s.spawnGate setup .drained with
      coordinator := .working (some s.admission.threads.length) .collecting }
  | .working drained closing => s.work setup drained closing
  | .forcing => { s with forceCancel := true, coordinator := .dropping }
  | .dropping => { s with transport := false, coordinator := .finishing (.error deadlineElapsed) }
  | .finishing result =>
    { s.spawnGate setup .close with coordinator := .closingGate s.admission.threads.length result }
  | .closingGate call result =>
    if s.returned call then { s with coordinator := .storingClosed result }
    else s.stepGate setup call .run
  | .storingClosed result => { s with state := .closed, coordinator := .completing result }
  | .completing result => { s with completion := some result, coordinator := .finished }
  | .finished => s

/-- The call at the gate that is the coordinator's own. -/
def ownCall : Option Nat :=
  match s.coordinator with
  | .closing call | .working (some call) _ | .closingGate call _ => some call
  | _ => none

/-- The deadline of the shutdown is set. -/
def hasDeadline : Bool :=
  match s.coordinator with
  | .waiting => false
  | _ => true

def supervise (key : κ) (f : Slot κ → Slot κ) : ClientRuntime κ :=
  { s with subscriptions := s.subscriptions.map fun manager => manager.supervise key f }

def step : ClientEvent κ → ClientRuntime κ
  | .coordinator => s.poll setup
  | .invoke => if s.state = .running then s.spawnGate setup .tryEnter else s
  | .queued i =>
    if s.admission.threads[i]? = some (.finished (.error .overloaded)) then s.spawnGate setup .enter
    else s
  | .call i e => if s.ownCall = some i then s else s.stepGate setup i e
  | .transport i =>
    if s.admission.threads[i]? = some .guard then
      { s with accesses := s.accesses ++ [⟨s.forceCancel, s.transport⟩] }
    else s
  | .acquire key =>
    { s with subscriptions := s.subscriptions.map fun manager =>
        manager.acquire setup.maxSubscriptions key }
  | .slotState key state => s.supervise key fun slot => { slot with state }
  | .slotCompleted key => s.supervise key fun slot => { slot with completion := .completed }
  | .slotDropped key => s.supervise key fun slot => { slot with completion := .dropped }
  | .shutdown => { s with shutdown := true }
  | .deadlineElapses => if s.hasDeadline then { s with elapsed := true } else s

end ClientRuntime

/-- The client as a whole. -/
def client {κ : Type} [LinearOrder κ] (setup : Setup) :
    Machine (ClientRuntime κ) (ClientEvent κ) where
  init := .new setup
  step := ClientRuntime.step setup

end Fusen.Client
