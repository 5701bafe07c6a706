import Fusen.Lib.Machine
import Fusen.Lib.Text
import Fusen.Resilience.EndpointStore

/-!
# Endpoint breakers and discovery membership (`client/endpoint_breakers.rs`)

Discovery keeps, for each selector, the set of endpoints it currently has, and
for each endpoint the number of selectors that have it.  An endpoint nobody has
any more loses its cached breaker.  Every operation holds the membership lock
from end to end (a lookup for a direct endpoint needs only the store), so a run
is a sequence of operations.
-/

namespace Fusen.Client

open Lib Resilience

/-! ## Selectors and endpoints -/

def serviceIdentity (serviceId : Text) (group version : Option Text) : Text :=
  serviceId ++ (group.map ('/' :: ·)).getD [] ++ (version.map ('@' :: ·)).getD []

structure ServiceSelector where
  serviceId : Text
  group : Option Text
  version : Option Text
  metadata : List (Text × Text)
  deriving DecidableEq

def ServiceSelector.identity (s : ServiceSelector) : Text :=
  serviceIdentity s.serviceId s.group s.version

/-- An instance of a service, as far as breakers and directories look at it. -/
structure ServiceInstance where
  instanceId : Text
  endpoint : Text
  deriving DecidableEq

inductive EndpointBreakerSource where
  | direct
  | discovery
  deriving DecidableEq, Repr

structure EndpointBreakerKey where
  service : Text
  bindingId : Text
  source : EndpointBreakerSource
  endpoint : Text
  deriving DecidableEq

structure DiscoveryEndpoint where
  service : Text
  endpoint : Text
  deriving DecidableEq

def EndpointBreakerKey.member (key : EndpointBreakerKey) : DiscoveryEndpoint :=
  ⟨key.service, key.endpoint⟩

/-! ## Memberships -/

/-- The set of endpoints of each selector (a `DiscoveryOwner`), without repetition,
and how many of the sets have an endpoint. -/
structure DiscoveryMemberships where
  owners : List (ServiceSelector × List DiscoveryEndpoint)
  references : List (DiscoveryEndpoint × Nat)

/-- There are fewer owners than a `usize` can count, so `saturating_add` is the sum. -/
def incrementReferences (references : List (DiscoveryEndpoint × Nat))
    (endpoints : List DiscoveryEndpoint) : List (DiscoveryEndpoint × Nat) :=
  endpoints.foldl
    (fun references endpoint => Assoc.upsert endpoint (fun n => n.getD 0 + 1) references) references

/-- The references without the endpoints, and the endpoints that lost their last one. -/
def decrementReferences :
    List (DiscoveryEndpoint × Nat) → List DiscoveryEndpoint →
      List (DiscoveryEndpoint × Nat) × List DiscoveryEndpoint
  | references, [] => (references, [])
  | references, endpoint :: endpoints =>
    match Assoc.get references endpoint with
    | some count =>
      if count > 1 then
        decrementReferences (Assoc.upsert endpoint (fun _ => count - 1) references) endpoints
      else
        let (references, evicted) :=
          decrementReferences (Assoc.remove endpoint references) endpoints
        (references, endpoint :: evicted)
    | none => decrementReferences references endpoints

/-- `previous.difference(&current)` -/
def difference (previous current : List DiscoveryEndpoint) : List DiscoveryEndpoint :=
  previous.filter fun e => !current.contains e

structure EndpointBreakers where
  store : EndpointBreakerStore EndpointBreakerKey
  memberships : DiscoveryMemberships

namespace EndpointBreakers

def new (maxEntries idleEviction : Nat) : EndpointBreakers :=
  ⟨.new maxEntries idleEviction, ⟨[], []⟩⟩

def getOrInsertObserved (s : EndpointBreakers) (key : EndpointBreakerKey) (now tie : Nat) :
    Nat × EndpointBreakers :=
  if key.source = .direct ∨ (Assoc.get s.memberships.references key.member).isSome then
    let (breaker, store) := s.store.getOrInsert key now tie
    (breaker, { s with store })
  else
    let (breaker, store) := s.store.untracked
    (breaker, { s with store })

def removeCached (store : EndpointBreakerStore EndpointBreakerKey)
    (endpoints : List DiscoveryEndpoint) : EndpointBreakerStore EndpointBreakerKey :=
  store.retain fun key => key.source ≠ .discovery || !endpoints.contains key.member

/-- The endpoints of a snapshot, collected into a set. -/
def endpointSet (selector : ServiceSelector) (instances : List ServiceInstance) :
    List DiscoveryEndpoint :=
  (instances.map fun i => ⟨selector.identity, i.endpoint⟩).dedup

def replaceDiscovery (s : EndpointBreakers) (selector : ServiceSelector)
    (instances : List ServiceInstance) : EndpointBreakers :=
  let current := endpointSet selector instances
  let previous := (Assoc.get s.memberships.owners selector).getD []
  let owners := Assoc.remove selector s.memberships.owners
  let (references, evicted) :=
    decrementReferences s.memberships.references (difference previous current)
  let references := incrementReferences references (difference current previous)
  { store := removeCached s.store evicted
    memberships := ⟨Assoc.upsert selector (fun _ => current) owners, references⟩ }

def removeDiscovery (s : EndpointBreakers) (selector : ServiceSelector) : EndpointBreakers :=
  let removed := (Assoc.get s.memberships.owners selector).getD []
  let owners := Assoc.remove selector s.memberships.owners
  let (references, evicted) := decrementReferences s.memberships.references removed
  { store := removeCached s.store evicted, memberships := ⟨owners, references⟩ }

end EndpointBreakers

/-! ## Runs -/

inductive BreakersEvent where
  | replaceDiscovery (selector : ServiceSelector) (instances : List ServiceInstance)
  | removeDiscovery (selector : ServiceSelector)
  | lookup (key : EndpointBreakerKey) (now tie : Nat)

def EndpointBreakers.step (s : EndpointBreakers) : BreakersEvent → EndpointBreakers
  | .replaceDiscovery selector instances => s.replaceDiscovery selector instances
  | .removeDiscovery selector => s.removeDiscovery selector
  | .lookup key now tie => (s.getOrInsertObserved key now tie).2

def endpointBreakers (maxEntries idleEviction : Nat) : Machine EndpointBreakers BreakersEvent where
  init := .new maxEntries idleEviction
  step := .step

end Fusen.Client
