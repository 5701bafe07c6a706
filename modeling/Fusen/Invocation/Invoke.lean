import Fusen.Invocation.Attempts
import Fusen.Wire.Bodies

/-!
# An invocation (`ServiceClient::invoke` of `client/invocation.rs`)

The call interceptors surround the attempts and their breaker permits; what comes back is
decoded, and the permits that were held through the call get their outcome.  The encoder
of the arguments and the decoder of the result are the generated client's.
-/

namespace Fusen.Invocation

open Lib Contract Resilience Wire

/-- What comes of a call to generated code. -/
inductive Generated (α : Type)
  | ok (value : α)
  | error (e : Error)
  | panicked

/-- The end of a future that was dropped from outside. -/
inductive CutOff
  | deadline | forced | caller
deriving DecidableEq, Repr

/-- How `acquire_admission` ends: in a permit, or refused. -/
inductive AdmissionFate
  | entered | draining | overloaded | queueFull | expired | queueTimeout
deriving DecidableEq, Repr

structure World where
  running : Bool
  admission : AdmissionFate
  encode : Generated Unit
  transportOpen : Bool
  callInterceptors : List Interceptor
  serviceGrants : Bool
  attempts : Nat → AttemptWorld
  requestId : Text
  /-- Whether the body is a value of the return type; `none` is a panic. -/
  decodes : Text → Option Bool
  cutOff : CutOff

/-! ## The terminal of the call -/

structure TerminalSide where
  started : Nat
  heldEndpoint : Option Nat

namespace InvocationTerminal

def idle : TerminalSide := ⟨0, none⟩

def finish (run : LoopRun) : LoopEnd → Ran TerminalSide
  | .succeeded s =>
    match s.serviceBreakerFailure with
    | some failure =>
      ⟨run.events ++ [.serviceBreaker (.failure failure)], ⟨run.started, none⟩,
        some (.ok s.response)⟩
    | none =>
      match s.endpointPermit with
      | some attempt =>
        ⟨run.events, ⟨run.started, some attempt⟩,
          some (.ok { s.response with tracksEndpointBreaker := true, serviceBreakerPermit := true })⟩
      | none =>
        ⟨run.events ++ [.serviceBreaker (if run.started = 0 then .unattempted else .abandoned)],
          ⟨run.started, none⟩, some (.ok s.response)⟩
  | .failed e =>
    ⟨run.events ++ [.serviceBreaker (if run.started = 0 then .unattempted else .failure e.failure)],
      ⟨run.started, none⟩, some (.error e.error)⟩
  | .dropped | .outOfFuel => ⟨run.events ++ [.serviceBreaker .abandoned], ⟨run.started, none⟩, none⟩

def execute (client : Client) (world : World) : Ran TerminalSide :=
  if world.serviceGrants = false then ⟨[], idle, some (.error circuitOpen)⟩
  else
    let run := executeAttempts client world.attempts
    finish run run.end_

end InvocationTerminal

/-! ## The result -/

def closedInvocation : Error :=
  .framework .unavailable "client_closed" "client runtime is draining or closed".toList

def AdmissionFate.error : AdmissionFate → Option Error
  | .entered => none
  | .draining => some closedInvocation
  | .overloaded =>
    some (.framework .resourceExhausted "overloaded"
      "client logical invocation concurrency is exhausted".toList)
  | .queueFull =>
    some (.framework .resourceExhausted "admission_queue_full"
      "client admission queue is full".toList)
  | .expired => some deadlineExceeded
  | .queueTimeout =>
    some (.framework .resourceExhausted "admission_queue_timeout"
      "client admission queue wait elapsed".toList)

def serializationPanic : Error :=
  .framework .internal "serialization_panic" "failed to serialize invocation arguments".toList

def invalidResult (remoteResult : Bool) (requestId : Text) : Error :=
  if remoteResult then
    remoteProtocolError "invalid_result"
      "invocation result does not match the generated return type" requestId
  else .invalidResult "invocation result does not match the generated return type"

/-- An invocation: what it did, and its result unless the caller dropped it. -/
structure Invoked where
  events : List Event
  result : Option InterceptorResult

def InterceptorResult.attempts : InterceptorResult → Nat
  | .ok response => response.attempts
  | .error e => e.attempts

/-- The permits of a typed result, each with its outcome. -/
def finishPermits (endpointPermit : Option Nat) (servicePermit : Bool) (outcome : PermitOutcome) :
    List Event :=
  endpointPermit.toList.map (fun attempt => .endpointBreaker attempt outcome) ++
    if servicePermit then [.serviceBreaker outcome] else []

/-- `succeed_endpoint_breaker`. -/
def succeedEndpointBreaker (heldEndpoint : Option Nat) : List Event :=
  heldEndpoint.toList.map fun attempt => .endpointBreaker attempt .success

/-- The events of a result that is not of the return type: a remote one is a protocol failure. -/
def finishResultFailure (response : Response) (endpointPermit : Option Nat) : List Event :=
  if response.wireOrigin then
    response.attemptCompletion.toList.map Event.undecodable ++
      response.finishAttempt (some .protocol) ++
      finishPermits endpointPermit response.serviceBreakerPermit (.failure .protocol)
  else
    response.finishAttempt none ++
      finishPermits endpointPermit response.serviceBreakerPermit .success

/-- From the response of the call interceptors to the result. -/
def finishResponse (world : World) (side : TerminalSide) (response : Response) :
    List Event × InterceptorResult :=
  let attempts := max response.attempts side.started
  let endpointPermit := if response.tracksEndpointBreaker then side.heldEndpoint else none
  let succeeded := if response.tracksEndpointBreaker then [] else succeedEndpointBreaker side.heldEndpoint
  match world.decodes response.body with
  | some true =>
    (succeeded ++ response.finishAttempt none ++
      finishPermits endpointPermit response.serviceBreakerPermit .success,
      .ok { response with attempts, wireOrigin := false, attemptCompletion := none,
                          serviceBreakerPermit := false })
  | some false | none =>
    (succeeded ++ finishResultFailure response endpointPermit,
      .error ((invalidResult response.wireOrigin world.requestId).withAttempts attempts))

/-- The last `map_err`. -/
def InterceptorResult.withStarted (started : Nat) (requestId : Text) :
    InterceptorResult → InterceptorResult
  | .ok response => .ok response
  | .error e => .error ((e.withAttempts (max e.attempts started)).withRequestId requestId)

def cutOffError : CutOff → Option InterceptorResult
  | .deadline => some (.error deadlineExceeded)
  | .forced => some (.error cancelled)
  | .caller => none

/-- What follows the call interceptors. -/
def finishCall (world : World) (ran : Ran TerminalSide) : Invoked :=
  let finished : List Event × Option InterceptorResult :=
    match ran.result with
    | none =>
      (ran.side.heldEndpoint.toList.map fun attempt => .endpointBreaker attempt .abandoned,
        cutOffError world.cutOff)
    | some (.error e) => (succeedEndpointBreaker ran.side.heldEndpoint, some (.error e))
    | some (.ok response) =>
      let finished := finishResponse world ran.side response
      (finished.1, some finished.2)
  ⟨ran.events ++ finished.1,
    finished.2.map (·.withStarted ran.side.started world.requestId)⟩

/-- A failure before the call interceptors. -/
def refused (world : World) (e : Error) : Invoked := ⟨[], some (.error (e.withRequestId world.requestId))⟩

def invoke (client : Client) (world : World) : Invoked :=
  if world.running = false then refused world closedInvocation
  else
    match world.admission.error with
    | some e => refused world e
    | none =>
      match world.encode with
      | .error e => refused world e
      | .panicked => refused world serializationPanic
      | .ok () =>
        if world.transportOpen = false then refused world closedInvocation
        else
          finishCall world
            (Next.run (InvocationTerminal.execute client world) InvocationTerminal.idle
              world.callInterceptors)

/-! ## A client whose calls go well -/

def usersEndpoint : ServiceEndpoint :=
  ⟨⟨"http".toList, false, [], none, some "users".toList, none, "/".toList, none, none⟩, by decide⟩

def usersClient : Client where
  bindingId := ⟨"http-json-v1".toList, by decide⟩
  httpVersionPolicy := .auto
  source := .direct usersEndpoint none
  retry := ⟨3, 10000000, 200000000, 100, 10, by decide, by decide, by decide⟩
  method := usersMethod

/-- An attempt that is answered at once. -/
def answeredAttempt : AttemptWorld where
  snapshot := ⟨0, .initializing, []⟩
  routers := []
  grants _ := true
  loadBalancer _ := some (.ok 0)
  interceptors := []
  fate := .answered (.decoded "null".toList)
  draw := 0
  remaining := 1000000000
  policy := standardRetryPolicy
  budget := ⟨100 * TOKEN_SCALE, 0⟩
  now := 0
  sleep := .elapsed

def answeredCall (attempts : Nat → AttemptWorld) : World where
  running := true
  admission := .entered
  encode := .ok ()
  transportOpen := true
  callInterceptors := []
  serviceGrants := true
  attempts
  requestId := "request-1".toList
  decodes _ := some true
  cutOff := .caller

end Fusen.Invocation
