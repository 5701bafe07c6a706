import Fusen.Invocation.Interceptors
import Fusen.Register.Directory
import Fusen.Contract.Service

/-!
# Choosing an endpoint (`select_endpoint` of `client/invocation.rs`)

An attempt keeps the compatible instances of the current snapshot, prefers the ones this
invocation has not tried, lets the routers narrow them, takes a breaker permit for each
that is left, and asks the load balancer for one.  A router and a load balancer are
functions; `none` is a panic.  An endpoint stands for its text.
-/

namespace Fusen.Invocation

open Lib Contract Resilience Register

/-! ## Versions -/

inductive HttpVersionPolicy
  | auto | http1 | http2 | h2c
deriving DecidableEq, Repr

inductive HttpVersion
  | http11 | http2
deriving DecidableEq, Repr

def isHttps (endpoint : ServiceEndpoint) : Bool := endpoint.url.scheme = "https".toList

def selectHttpVersion (policy : HttpVersionPolicy) (endpoint : ServiceEndpoint)
    (capabilities : EndpointCapabilities) : Option HttpVersion :=
  let versions := capabilities.httpVersions
  let secure := isHttps endpoint
  match policy with
  | .auto =>
    if secure && versions.http2 then some .http2
    else if versions.http11 then some .http11
    else none
  | .http1 => if versions.http11 then some .http11 else none
  | .http2 => if secure && versions.http2 then some .http2 else none
  | .h2c => if !secure && versions.http2 then some .http2 else none

def shouldAutoNegotiate (policy : HttpVersionPolicy) (endpoint : ServiceEndpoint)
    (capabilities : EndpointCapabilities) : Bool :=
  policy = .auto && isHttps endpoint && capabilities.httpVersions.http11 &&
    capabilities.httpVersions.http2

/-! ## Errors -/

def noInstances : Error :=
  .framework .unavailable "no_instances"
    "discovery has no currently routable service instances".toList

def noCompatibleEndpoint : Error :=
  .framework .unavailable "no_compatible_endpoint"
    "no endpoint is compatible with the selected HTTP binding and version policy".toList

def circuitOpen : Error :=
  .framework .unavailable "circuit_open" "circuit breaker rejected the attempt".toList

def routerPanic : Error := .framework .internal "router_panic" "router failed".toList

def invalidRouterOutput : Error :=
  .framework .internal "invalid_router_output"
    "instance router must return a non-duplicated subset of its input snapshot".toList

def loadBalancerPanic : Error :=
  .framework .internal "load_balancer_panic" "load balancer failed".toList

def invalidLoadBalancerSelection : Error :=
  .framework .internal "invalid_load_balancer_selection"
    "load balancer returned an out-of-range index".toList

/-! ## The endpoints a client has -/

/-- The retry settings with what `validate_retry` checks of them. -/
structure RetryConfig where
  maxAttempts : Nat
  backoffBase : Nat
  backoffCap : Nat
  budgetCapacity : Nat
  budgetRefillPerSecond : Nat
  maxAttempts_valid : 1 ≤ maxAttempts ∧ maxAttempts ≤ 3
  backoff_valid : 0 < backoffBase ∧ backoffBase ≤ backoffCap
  budget_valid : 0 < budgetCapacity ∧ 0 < budgetRefillPerSecond

def RetryConfig.budget (config : RetryConfig) : RetryBudget :=
  ⟨config.budgetCapacity, config.budgetRefillPerSecond⟩

inductive EndpointSource
  | direct (endpoint : ServiceEndpoint) (capabilities : Option EndpointCapabilities)
  | discovery

/-- What an invocation reads of its client and method. -/
structure Client where
  bindingId : HttpBindingId
  httpVersionPolicy : HttpVersionPolicy
  source : EndpointSource
  retry : RetryConfig
  method : MethodDescriptor

abbrev Router := List ServiceInstance → Option (Except Error (List ServiceInstance))

abbrev LoadBalancer := List ServiceInstance → Option (Except Error Nat)

/-- What selection meets outside: the directory, the routers and the load balancer of the
client, and whether the breaker of an instance, by its place, grants a permit. -/
structure SelectionWorld where
  snapshot : DirectorySnapshot ServiceInstance
  routers : List Router
  grants : Nat → Bool
  loadBalancer : LoadBalancer

def directCapabilities (bindingId : HttpBindingId) (endpoint : ServiceEndpoint) :
    EndpointCapabilities where
  httpVersions := if isHttps endpoint then .ALL else .HTTP_1_1
  bindings := [bindingId.text]
  invocationControls := false
  bindings_valid := by
    intro b hb
    rw [List.mem_singleton.mp hb]
    exact bindingId.valid
  bindings_ordered := List.pairwise_singleton _ _
  bindings_ne_nil := List.cons_ne_nil _ _

def directInstance (bindingId : HttpBindingId) (endpoint : ServiceEndpoint)
    (capabilities : Option EndpointCapabilities) : ServiceInstance where
  instanceId := ⟨"direct".toList, by decide⟩
  endpoint
  capabilities := capabilities.getD (directCapabilities bindingId endpoint)
  weight := ⟨.finite 1, (rfl : true = true)⟩
  metadata := []
  metadata_valid := validateUserMetadata_nil
  metadata_distinct := List.nodup_nil

def endpoints (client : Client) (world : SelectionWorld) : Except Error (List ServiceInstance) :=
  match client.source with
  | .direct endpoint capabilities => .ok [directInstance client.bindingId endpoint capabilities]
  | .discovery =>
    if world.snapshot.state ≠ .ready ∧ world.snapshot.state ≠ .stale then .error noInstances
    else if world.snapshot.instances = [] then .error noInstances
    else .ok world.snapshot.instances

def isCompatible (client : Client) (x : ServiceInstance) : Bool :=
  x.capabilities.bindings.contains client.bindingId.text &&
    (selectHttpVersion client.httpVersionPolicy x.endpoint x.capabilities).isSome

/-- The compatible instances of the current snapshot. -/
def compatible (client : Client) (world : SelectionWorld) : List ServiceInstance :=
  match endpoints client world with
  | .ok instances => instances.filter (isCompatible client)
  | .error _ => []

/-! ## Routing -/

def sameInstance (left right : ServiceInstance) : Bool :=
  left.instanceId = right.instanceId && left.endpoint = right.endpoint &&
    left.capabilities = right.capabilities && left.weight = right.weight &&
    left.metadata = right.metadata

/-- Every instance of the output is matched with an instance of the input of its own. -/
def validateRouterOutput (input : List ServiceInstance) :
    List ServiceInstance → Except Error Unit
  | [] => .ok ()
  | x :: output =>
    if input.any fun candidate => sameInstance candidate x then
      validateRouterOutput (input.eraseP fun candidate => sameInstance candidate x) output
    else .error invalidRouterOutput

def route (routed : List ServiceInstance) : List Router → Except Error (List ServiceInstance)
  | [] => .ok routed
  | router :: routers =>
    match router routed with
    | none => .error routerPanic
    | some (.error e) => .error e
    | some (.ok output) =>
      match validateRouterOutput routed output with
      | .error e => .error e
      | .ok () => route output routers

/-- The instances the breakers let through. -/
def eligible (grants : Nat → Bool) (routed : List ServiceInstance) : List ServiceInstance :=
  (routed.zipIdx.filter fun x => grants x.2).map Prod.fst

/-! ## Selection -/

structure SelectedEndpoint where
  instance_ : ServiceInstance
  httpVersion : HttpVersion
  autoNegotiate : Bool
  invocationControls : Bool

def untried (attempted : List ServiceEndpoint) (instances : List ServiceInstance) :
    List ServiceInstance :=
  if instances.any fun x => !attempted.contains x.endpoint then
    instances.filter fun x => !attempted.contains x.endpoint
  else instances

def SelectedEndpoint.of (client : Client) (x : ServiceInstance) : SelectedEndpoint where
  instance_ := x
  httpVersion :=
    if shouldAutoNegotiate client.httpVersionPolicy x.endpoint x.capabilities then .http11
    else (selectHttpVersion client.httpVersionPolicy x.endpoint x.capabilities).getD .http11
  autoNegotiate := shouldAutoNegotiate client.httpVersionPolicy x.endpoint x.capabilities
  invocationControls := x.capabilities.invocationControls

def released (instances : List ServiceInstance) : List Event :=
  instances.map fun x => .released x.endpoint

/-- The load balancer's choice; the permits of the others are released. -/
def chooseEligible (client : Client) (loadBalancer : LoadBalancer)
    (instances : List ServiceInstance) : List Event × Except Error SelectedEndpoint :=
  if instances = [] then ([], .error circuitOpen)
  else
    match loadBalancer instances with
    | none => (released instances, .error loadBalancerPanic)
    | some (.error e) => (released instances, .error e)
    | some (.ok index) =>
      match instances[index]? with
      | some x => (released (instances.eraseIdx index), .ok (.of client x))
      | none => (released instances, .error invalidLoadBalancerSelection)

/-- Everything before the breakers. -/
def routable (client : Client) (world : SelectionWorld) (attempted : List ServiceEndpoint) :
    Except Error (List ServiceInstance) :=
  match endpoints client world with
  | .error e => .error e
  | .ok _ =>
    let instances := compatible client world
    if instances = [] then .error noCompatibleEndpoint
    else
      match route (untried attempted instances) world.routers with
      | .error e => .error e
      | .ok routed => if routed = [] then .error noInstances else .ok routed

def selectEndpoint (client : Client) (world : SelectionWorld) (attempted : List ServiceEndpoint) :
    List Event × Except Error SelectedEndpoint :=
  match routable client world attempted with
  | .error e => ([], .error e)
  | .ok routed => chooseEligible client world.loadBalancer (eligible world.grants routed)

/-! ## The errors of a selection -/

/-- The errors that selection makes itself. -/
def selectionErrors : List Error :=
  [noInstances, noCompatibleEndpoint, circuitOpen, routerPanic, invalidRouterOutput,
    loadBalancerPanic, invalidLoadBalancerSelection]

section Errors

variable {Q : Error → Prop} (hown : ∀ e ∈ selectionErrors, Q e)
include hown

theorem validateRouterOutput_error {input output : List ServiceInstance} {e : Error}
    (h : validateRouterOutput input output = .error e) : Q e := by
  induction output generalizing input with
  | nil => nomatch h
  | cons x output ih =>
    unfold validateRouterOutput at h
    split at h
    · exact ih h
    · cases h
      exact hown _ (by simp [selectionErrors])

theorem route_error {routers : List Router}
    (hrouters : ∀ router ∈ routers, ∀ routed e, router routed = some (.error e) → Q e)
    {routed : List ServiceInstance} {e : Error} (h : route routed routers = .error e) : Q e := by
  induction routers generalizing routed with
  | nil => nomatch h
  | cons router routers ih =>
    unfold route at h
    split at h
    · cases h
      exact hown _ (by simp [selectionErrors])
    · rename_i e' hrouter
      cases h
      exact hrouters router (List.mem_cons_self ..) _ _ hrouter
    · split at h
      · rename_i e' hvalid
        cases h
        exact validateRouterOutput_error hown hvalid
      · exact ih (fun r hr => hrouters r (List.mem_cons_of_mem router hr)) h

/-- An error of a selection is its own, a router's or the load balancer's. -/
theorem selectEndpoint_error {client : Client} {world : SelectionWorld}
    (hrouters : ∀ router ∈ world.routers, ∀ routed e, router routed = some (.error e) → Q e)
    (hbalancer : ∀ eligible e, world.loadBalancer eligible = some (.error e) → Q e)
    {attempted : List ServiceEndpoint} {before : List Event} {e : Error}
    (h : selectEndpoint client world attempted = (before, .error e)) : Q e := by
  have hendpoints : ∀ {e}, endpoints client world = .error e → Q e := by
    intro e h
    unfold endpoints at h
    split at h
    · nomatch h
    · split at h
      · cases h
        exact hown _ (by simp [selectionErrors])
      · split at h
        · cases h
          exact hown _ (by simp [selectionErrors])
        · nomatch h
  unfold selectEndpoint at h
  split at h
  · rename_i e' hroutable
    cases h
    unfold routable at hroutable
    split at hroutable
    · rename_i herror
      cases hroutable
      exact hendpoints herror
    · dsimp only at hroutable
      split at hroutable
      · cases hroutable
        exact hown _ (by simp [selectionErrors])
      · split at hroutable
        · rename_i hroute
          cases hroutable
          exact route_error hown hrouters hroute
        · split at hroutable
          · cases hroutable
            exact hown _ (by simp [selectionErrors])
          · nomatch hroutable
  · unfold chooseEligible at h
    split at h
    · cases h
      exact hown _ (by simp [selectionErrors])
    · split at h
      · cases h
        exact hown _ (by simp [selectionErrors])
      · rename_i herror
        cases h
        exact hbalancer _ _ herror
      · split at h
        · nomatch h
        · cases h
          exact hown _ (by simp [selectionErrors])

end Errors

end Fusen.Invocation
