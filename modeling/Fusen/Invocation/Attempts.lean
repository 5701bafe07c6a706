import Fusen.Invocation.Selection

/-!
# The attempts of an invocation (`execute_attempts` of `client/invocation.rs`)

`attemptOnce` is one turn of the loop and `attemptsFrom` the loop.  What a turn meets
outside is an `AttemptWorld`: what selection meets, the attempt interceptors, the fate of
the request, the clock, the retry policy and the budget, which other invocations share.
`started` is the counter `attempts_started`, the number of the last attempt that was sent.
-/

namespace Fusen.Invocation

open Lib Contract Resilience

/-! ## The terminal -/

inductive TransportFailureKind
  | connect | io
deriving DecidableEq, Repr

def TransportFailureKind.failure : TransportFailureKind → FailureClass
  | .connect => .connect
  | .io => .transport

/-- The fate of reading the answer. -/
inductive DecodeFate
  | expired
  | failed (e : Error)
  | decoded (body : Text)
  | dropped

/-- The fate of `AttemptTerminal::call`. -/
inductive CallFate
  /-- No bulkhead permit. -/
  | overloaded
  | unencodable (e : Error)
  /-- The runtime was cancelled, before the transport was polled or after. -/
  | cancelled (handed : Bool)
  | expired
  | failed (kind : TransportFailureKind)
  | answered (decode : DecodeFate)
  /-- The future was dropped while sending. -/
  | dropped

structure AttemptObservation where
  failure : Option FailureClass
  retryAfter : Option Nat
  transportSucceeded : Bool

def AttemptObservation.default : AttemptObservation := ⟨none, none, false⟩

def endpointOverloaded : Error :=
  .framework .resourceExhausted "endpoint_overloaded"
    "selected endpoint concurrency is exhausted".toList

def cancelled : Error :=
  .framework .cancelled "cancelled" "service invocation was cancelled".toList

def deadlineExceeded : Error :=
  .framework .deadlineExceeded "deadline_exceeded" "service invocation deadline elapsed".toList

/-- `TransportFailure::into_error`. -/
def transportFailed : Error := (Error.internal "HTTP transport failed").withRetryHint .retryable

def retryPolicyPanic : Error :=
  .framework .internal "retry_policy_panic" "retry policy failed".toList

def wireResponse (attempt : Nat) (body : Text) : Response := ⟨0, true, false, false, some attempt, body⟩

/-- What a call of the terminal leaves beside its result. -/
structure Called where
  started : Nat
  observation : AttemptObservation

namespace AttemptTerminal

def observe (attempt : Nat) (failure : FailureClass) (retryAfter : Option Nat) (e : Error) :
    Ran Called :=
  ⟨[.sent attempt, .observed attempt failure], ⟨attempt, ⟨some failure, retryAfter, false⟩⟩,
    some (.error e)⟩

def decode (attempt : Nat) : DecodeFate → Ran Called
  | .expired => observe attempt .timeout none deadlineExceeded
  | .failed e => observe attempt (classifyError e) e.retryHint.retryAfter e
  | .decoded body =>
    ⟨[.sent attempt], ⟨attempt, ⟨none, none, true⟩⟩, some (.ok (wireResponse attempt body))⟩
  | .dropped => ⟨[.sent attempt], ⟨attempt, .default⟩, none⟩

def call (attempt started : Nat) : CallFate → Ran Called
  | .overloaded => ⟨[], ⟨started, .default⟩, some (.error endpointOverloaded)⟩
  | .unencodable e => ⟨[], ⟨started, .default⟩, some (.error e)⟩
  | .cancelled handed =>
    ⟨if handed then [.sent attempt] else [], ⟨attempt, .default⟩, some (.error cancelled)⟩
  | .expired => observe attempt .timeout none deadlineExceeded
  | .failed kind => observe attempt kind.failure none transportFailed
  | .answered fate => decode attempt fate
  | .dropped => ⟨[.sent attempt], ⟨attempt, .default⟩, none⟩

end AttemptTerminal

/-! ## One turn of the loop -/

inductive SleepFate
  | elapsed | cancelled | dropped
deriving DecidableEq, Repr

structure AttemptWorld extends SelectionWorld where
  interceptors : List Interceptor
  fate : CallFate
  /-- What the jitter's generator draws. -/
  draw : Nat
  /-- The time to the deadline when the attempt has failed. -/
  remaining : Nat
  policy : RetryPolicy
  budget : BudgetState
  now : Nat
  sleep : SleepFate

structure ClassifiedError where
  error : Error
  failure : FailureClass

def ClassifiedError.classify (error : Error) : ClassifiedError := ⟨error, classifyError error⟩

/-- `endpointPermit` is the number of the attempt whose endpoint permit is held. -/
structure AttemptSuccess where
  response : Response
  endpointPermit : Option Nat
  serviceBreakerFailure : Option FailureClass

inductive TurnOutcome
  | succeeded (s : AttemptSuccess)
  | failed (e : ClassifiedError)
  | dropped
  | again (endpoint : ServiceEndpoint)

structure Turn where
  events : List Event
  started : Nat
  outcome : TurnOutcome

/-- What the attempt interceptors made of the attempt. -/
def AttemptWorld.ran (world : AttemptWorld) (attempt started : Nat) : Ran Called :=
  Next.run (AttemptTerminal.call attempt started world.fate) ⟨started, .default⟩ world.interceptors

/-- The `Ok` arm. -/
def settleSuccess (attempt : Nat) (called : Called) (response : Response) :
    List Event × AttemptSuccess :=
  let response := { response with attempts := called.started }
  match called.observation.failure with
  | some failure =>
    ([.attemptFinished attempt (some failure), .endpointBreaker attempt (.failure failure)],
      ⟨response, none, some failure⟩)
  | none =>
    if attempt ≤ called.started then ([], ⟨response, some attempt, none⟩)
    else ([.endpointBreaker attempt .unattempted], ⟨response, none, none⟩)

def attemptFailure (observation : AttemptObservation) (e : Error) : FailureClass :=
  observation.failure.getD (classifyError e)

/-- What becomes of the endpoint permit of an attempt that ends in an error. -/
def permitOutcome (attempt : Nat) (called : Called) : PermitOutcome :=
  match called.observation.failure with
  | some failure => .failure failure
  | none =>
    if called.observation.transportSucceeded then .success
    else if called.started < attempt then .unattempted
    else .abandoned

/-- The `Retry-After` that counts. -/
def retryAfter (observation : AttemptObservation) (e : Error) : Option Nat :=
  if observation.failure.isSome then observation.retryAfter else e.retryHint.retryAfter

def retryDelay (client : Client) (world : AttemptWorld) (attempt : Nat) (hint : Option Nat) : Nat :=
  let delay := fullJitterBackoff client.retry.backoffBase client.retry.backoffCap attempt world.draw
  max delay (hint.getD 0)

def retryContext (client : Client) (world : AttemptWorld) (attempt : Nat)
    (failure : FailureClass) : RetryDecisionContext :=
  .new attempt client.retry.maxAttempts client.method.allowsRetries failure world.remaining

/-- What follows the attempt's own settlement: the decision to retry, and the wait. -/
def retryOrStop (client : Client) (world : AttemptWorld) (attempt : Nat)
    (endpoint : ServiceEndpoint) (started : Nat) (failure : FailureClass) (hint : Option Nat)
    (e : Error) : List Event × TurnOutcome :=
  let delay := retryDelay client world attempt hint
  if world.remaining ≤ delay then ([], .failed ⟨e, failure⟩)
  else
    let context := retryContext client world attempt failure
    let decision := decideWithGuards world.policy context client.retry.budget world.budget world.now
    let decided := .decided attempt context decision.1 world.now world.budget decision.2
    match decision.1 with
    | none => ([decided], .failed ⟨retryPolicyPanic.withAttempts started, failure⟩)
    | some .stop => ([decided], .failed ⟨e, failure⟩)
    | some .retry =>
      ([decided, .waiting attempt delay],
        match world.sleep with
        | .elapsed => .again endpoint
        | .cancelled => .failed (.classify (cancelled.withAttempts started))
        | .dropped => .dropped)

/-- The `Err` arm. -/
def settleFailure (client : Client) (world : AttemptWorld) (attempt : Nat)
    (endpoint : ServiceEndpoint) (called : Called) (e : Error) : List Event × TurnOutcome :=
  let failure := attemptFailure called.observation e
  let after := retryOrStop client world attempt endpoint called.started failure
    (retryAfter called.observation e) (e.withAttempts called.started)
  (.endpointBreaker attempt (permitOutcome attempt called) ::
    (if attempt ≤ called.started then [.attemptFinished attempt (some failure)] else []) ++ after.1,
    after.2)

def settle (client : Client) (world : AttemptWorld) (attempt : Nat) (endpoint : ServiceEndpoint)
    (called : Called) : Option InterceptorResult → List Event × TurnOutcome
  | none => ([.endpointBreaker attempt .abandoned], .dropped)
  | some (.ok response) =>
    let settled := settleSuccess attempt called response
    (settled.1, .succeeded settled.2)
  | some (.error e) => settleFailure client world attempt endpoint called e

def attemptOnce (client : Client) (world : AttemptWorld) (attempted : List ServiceEndpoint)
    (attempt started : Nat) : Turn :=
  match selectEndpoint client world.toSelectionWorld attempted with
  | (events, .error e) => ⟨events, started, .failed (.classify e)⟩
  | (events, .ok selected) =>
    let endpoint := selected.instance_.endpoint
    let ran := world.ran attempt started
    let settled := settle client world attempt endpoint ran.side ran.result
    ⟨events ++ .selected attempt endpoint :: ran.events ++ settled.1, ran.side.started, settled.2⟩

/-! ## The loop -/

inductive LoopEnd
  | succeeded (s : AttemptSuccess)
  | failed (e : ClassifiedError)
  | dropped
  | outOfFuel

structure LoopRun where
  events : List Event
  started : Nat
  end_ : LoopEnd

/-- The turns from an attempt on; `worlds` is what each attempt meets. -/
def attemptsFrom (client : Client) (worlds : Nat → AttemptWorld) :
    Nat → List ServiceEndpoint → Nat → Nat → LoopRun
  | 0, _, _, started => ⟨[], started, .outOfFuel⟩
  | fuel + 1, attempted, attempt, started =>
    let turn := attemptOnce client (worlds attempt) attempted attempt started
    match turn.outcome with
    | .succeeded s => ⟨turn.events, turn.started, .succeeded s⟩
    | .failed e => ⟨turn.events, turn.started, .failed e⟩
    | .dropped => ⟨turn.events, turn.started, .dropped⟩
    | .again endpoint =>
      let rest := attemptsFrom client worlds fuel (endpoint :: attempted) (min (attempt + 1) 255)
        turn.started
      ⟨turn.events ++ rest.events, rest.started, rest.end_⟩

/-- `execute_attempts`; `attemptsFrom_ends` says that the fuel suffices. -/
def executeAttempts (client : Client) (worlds : Nat → AttemptWorld) : LoopRun :=
  attemptsFrom client worlds HARD_MAX_ATTEMPTS [] 1 0

end Fusen.Invocation
