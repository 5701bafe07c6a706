import Fusen.Runtime.Waiting
import Fusen.Server.ErrorEcho
import Fusen.Server.Receive

/-!
# Serving a request (`server/http.rs`)

`HttpServer` puts the pipeline, the route table and the services together: `invoke` is
`execute_matched` for the route of a request, `respond` what the pipeline makes of its end.
The server is ready and admits the request in time, or refuses it at the admission (`refuse`).
`respond_ok`, `respond_error` and `refuse_error` say what a controlled request is answered with.
-/

namespace Fusen.Server

open Lib Contract Wire Fusen.Runtime

/-! ## The server -/

structure HttpServer where
  app : HttpApp
  table : RouteTable
  /-- The service that a route belongs to. -/
  selector : Route → ServiceSelector
  codecs : ReadCrates
  crates : Crates
  limits : ReadLimits
  maxResponseBody : Nat
  /-- The index of the budget for responses. -/
  responseBudget : Nat
  /-- A service with its interceptors, up to the deadline. -/
  service : MatchedRoute → Arguments → Prog (Awaited Response)

def validateQueryPairs (codec : PercentCodec) (query : Option Text) (maxQueryPairs : Nat) :
    Except Error Unit :=
  if ((formParse codec (query.getD [])).take (maxQueryPairs + 1)).length > maxQueryPairs then
    .error tooManyQueryPairs
  else .ok ()

namespace HttpServer

variable (s : HttpServer)

/-- The end of `execute_matched`. -/
def answer (m : MatchedRoute) : Awaited Response → Prog (Except Error HttpResponse)
  | none => .pure (.error deadlineExceeded)
  | some (.error e) => .pure (.error e)
  | some (.ok response) => encodeSuccess response m.route.operation.produces
      (m.route.operation.method = .head) s.maxResponseBody s.responseBudget

def executeMatched (m : MatchedRoute) (request : ReceivedRequest) :
    Prog (Except Error HttpResponse) :=
  match m.acceptHead s.codecs request.headers with
  | .error e => .pure (.error e)
  | .ok contentLength =>
    m.executeBody s.codecs s.limits request contentLength >>= fun
    | none => s.answer m none
    | some (.error e) => s.answer m (some (.error e))
    | some (.ok arguments) => s.service m arguments >>= s.answer m

/-- The invocation of the route of a request; without one there is none. -/
def invoke (request : ReceivedRequest) : Prog (Except Error HttpResponse) :=
  match s.table.matchHttp s.codecs.codec request.method (uriPath request.pathAndQuery) with
  | .error e => .pure (.error e)
  | .ok m => s.executeMatched m request

def identity (m : MatchedRoute) : MatchedIdentity :=
  ⟨(s.selector m.route).group, (s.selector m.route).version, m.route.method.allowsRetries⟩

/-- What the pipeline meets. -/
def environment (request : HttpRequest) (executed : Except Error HttpResponse) : Environment where
  elapsed := false
  readiness := .ready
  route := some ((s.table.matchHttp s.codecs.codec request.method (uriPath request.uri)).map
    s.identity)
  query := validateQueryPairs s.codecs.codec (uriQuery request.uri) s.limits.maxQueryPairs
  admission := some (.ok ())
  executed := some executed

def respond (request : HttpRequest) (freshId fallbackId : Text)
    (executed : Except Error HttpResponse) : Option HttpResponse :=
  s.app.call s.crates request (uriPath request.uri) freshId fallbackId
    (s.environment request executed)

/-- What the pipeline meets if `acquire_admission` fails; what is executed does not matter. -/
def unadmitted (request : HttpRequest) (e : Error) : Environment :=
  { s.environment request (.error e) with admission := some (.error e) }

def refuse (request : HttpRequest) (freshId fallbackId : Text) (e : Error) : Option HttpResponse :=
  s.app.call s.crates request (uriPath request.uri) freshId fallbackId (s.unadmitted request e)

end HttpServer

def overloaded : Error :=
  .framework .resourceExhausted "overloaded" "server request concurrency is exhausted".toList

def admissionQueueTimeout : Error :=
  .framework .resourceExhausted "admission_queue_timeout"
    "request did not enter admission before the queue wait limit".toList

/-- The error of `acquire_admission`; to the server a full queue is an overload. -/
def admissionError : Refusal → Error
  | .draining => draining
  | .overloaded | .queueFull => overloaded
  | .queueTimeout => admissionQueueTimeout
  | .deadlineExceeded => deadlineExceeded

theorem admissionError_sound (r : Refusal) : (admissionError r).Sound := by
  cases r <;> exact ⟨nofun, nofun, fun _ hd => nomatch hd⟩

/-! ## What is invoked -/

theorem validateQueryPairs_eq_ok_iff {codec : PercentCodec} {query : Option Text}
    {maxQueryPairs : Nat} : validateQueryPairs codec query maxQueryPairs = .ok () ↔
      (formParse codec (query.getD [])).length ≤ maxQueryPairs := by
  unfold validateQueryPairs
  rw [List.length_take]
  by_cases h : (formParse codec (query.getD [])).length ≤ maxQueryPairs
  · rw [if_neg (by omega)]
    exact iff_of_true rfl h
  · rw [if_pos (by omega)]
    exact iff_of_false (fun he => by cases he) h

section

variable {s : HttpServer} {limits : Nat → Fin Usize.size} {L : Ledger} {held : List Nat}
  {m : MatchedRoute} {out : Arguments}

/-- **A request that is received invokes the service** with the arguments that were read. -/
theorem HttpServer.invoke_of_receives {request : ReceivedRequest}
    (h : s.table.Receives s.codecs s.limits limits L held request m out) :
    s.table.matchHttp s.codecs.codec request.method (uriPath request.pathAndQuery) = .ok m ∧
    ∃ L', L.Restored L' ∧ (s.invoke request).exec limits L held =
      (s.service m out >>= s.answer m).exec limits L' held := by
  obtain ⟨hmatch, contentLength, hhead, L', hL', hx⟩ := RouteTable.receives_iff.mp h
  refine ⟨hmatch, L', hL', ?_⟩
  unfold invoke
  rw [hmatch]
  show (s.executeMatched m request).exec limits L held = _
  unfold executeMatched
  rw [hhead]
  dsimp only
  rw [Prog.exec_bind, hx]
  rfl

end

/-! ## What is answered -/

section

variable {s : HttpServer} {request : HttpRequest} {m : MatchedRoute} {service : ServiceSelector}
  {id : Text} {remaining attemptNumber : Nat} {executed : Except Error HttpResponse}

/-- A request with control headers that its server accepts. -/
structure HttpServer.Accepts (s : HttpServer) (request : HttpRequest) (m : MatchedRoute) (id : Text)
    (remaining attemptNumber : Nat) (service : ServiceSelector) : Prop where
  head : s.app.acceptHead request = .ok ()
  enabled : s.app.invocationControls = true
  validId : requestIdIsValid id = true
  controls : SentControls request.headers id remaining attemptNumber service
  attempt : 0 < attemptNumber ∧ attemptNumber < 256
  replay : 1 < attemptNumber → m.route.method.allowsRetries = true
  matched : s.table.matchHttp s.codecs.codec request.method (uriPath request.uri) = .ok m
  service : s.selector m.route = service
  query : (formParse s.codecs.codec ((uriQuery request.uri).getD [])).length ≤ s.limits.maxQueryPairs

/-- The pipeline comes to the route. -/
theorem HttpServer.Accepts.run_matched {env : Environment} (freshId : Text)
    (h : s.Accepts request m id remaining attemptNumber service) (helapsed : env.elapsed = false)
    (hready : env.readiness = .ready) (hroute : env.route = some (.ok (s.identity m))) :
    s.app.run request freshId env =
      (runMatched request ⟨id, min s.app.requestTimeout (wireTimeout remaining), attemptNumber⟩ true
        env (s.identity m), ⟨some id, true⟩) := by
  have hcontrols : hasInvocationControls request.headers = true :=
    hasInvocationControls_of_readsAs h.controls.id
  unfold HttpApp.run
  rw [h.head]
  simp only [hcontrols, h.enabled, Bool.not_true, Bool.and_false, Bool.false_eq_true, if_false,
    parseRequestControl_sent h.controls h.validId h.attempt]
  unfold runControlled
  rw [helapsed, hready, hroute]
  rfl

theorem HttpServer.Accepts.route (h : s.Accepts request m id remaining attemptNumber service) :
    some ((s.table.matchHttp s.codecs.codec request.method (uriPath request.uri)).map s.identity) =
      some (.ok (s.identity m)) := by
  rw [h.matched]
  rfl

/-- The checks of the route before the admission. -/
theorem HttpServer.Accepts.checked (h : s.Accepts request m id remaining attemptNumber service) :
    validateServiceControls request.headers (s.identity m).group (s.identity m).version = .ok () ∧
      validateQueryPairs s.codecs.codec (uriQuery request.uri) s.limits.maxQueryPairs = .ok () ∧
      validateAttempt attemptNumber (s.identity m).allowsRetries = .ok () := by
  refine ⟨?_, validateQueryPairs_eq_ok_iff.mpr h.query, ?_⟩
  · refine (validateServiceControls_iff h.controls _ _).mpr ?_
    rw [← h.service]
    exact ⟨rfl, rfl⟩
  · unfold validateAttempt
    rw [if_neg]
    rintro ⟨hlt, hno⟩
    exact absurd (h.replay hlt) (by simpa [identity] using hno)

/-- The pipeline comes to the invocation. -/
theorem HttpServer.Accepts.run (freshId : Text)
    (h : s.Accepts request m id remaining attemptNumber service) :
    s.app.run request freshId (s.environment request executed) =
      (match executed with
        | .ok r => .response r
        | .error e => .failed e id, ⟨some id, true⟩) := by
  obtain ⟨hservice, hquery, hattempt⟩ := h.checked
  have hquery : (s.environment request executed).query = .ok () := hquery
  rw [h.run_matched freshId rfl rfl h.route]
  unfold runMatched
  rw [if_pos rfl, hservice, hquery, hattempt]
  cases executed with
  | ok r => rfl
  | error e => rfl

/-- The pipeline ends at the admission. -/
theorem HttpServer.Accepts.run_refused (freshId : Text) (e : Error)
    (h : s.Accepts request m id remaining attemptNumber service) :
    s.app.run request freshId (s.unadmitted request e) = (.refused e, ⟨some id, true⟩) := by
  obtain ⟨hservice, hquery, hattempt⟩ := h.checked
  have hquery : (s.unadmitted request e).query = .ok () := hquery
  rw [h.run_matched freshId rfl rfl h.route]
  unfold runMatched
  rw [if_pos rfl, hservice, hquery, hattempt]
  rfl

/-- The response to a call that succeeded is the one of the service, with the request id. -/
theorem HttpServer.respond_ok (encoded : HttpResponse) (freshId fallbackId : Text)
    (h : s.Accepts request m id remaining attemptNumber service) :
    ∃ sent, sealResponse encoded id true = some sent ∧
      s.respond request freshId fallbackId (.ok encoded) =
        some (if request.method = .head then { sent with body := ⟨[], none⟩ } else sent) := by
  obtain ⟨v, hv, -⟩ := fromStr_plain (requestId_plain h.validId).2
  have hseal : sealResponse encoded id true =
      some { encoded with headers := encoded.headers.insert requestId v } := by
    unfold sealResponse
    rw [if_pos rfl, hv]
    rfl
  refine ⟨_, hseal, ?_⟩
  unfold respond HttpApp.call
  rw [h.run]
  simp only [HttpApp.respond, Option.getD_some, hseal, Option.map_some]

/-- The response to a call that failed brings the error with the request id. -/
theorem HttpServer.respond_error (e : Error) (freshId fallbackId : Text)
    (hcrates : s.crates.Documented)
    (h : s.Accepts request m id remaining attemptNumber service) :
    ∃ response, Echoes s.crates e id (some (uriPath request.uri)) response ∧
      s.respond request freshId fallbackId (.error e) =
        some (if request.method = .head then { response with body := ⟨[], none⟩ } else response) := by
  obtain ⟨encoded, hencode, hechoes⟩ :=
    @echoes_encodeProblem s.crates e id (some (uriPath request.uri)) hcrates h.validId
  obtain ⟨sealed, hseal, hsealed⟩ := hechoes.seal h.validId
  refine ⟨sealed, hsealed, ?_⟩
  unfold respond HttpApp.call
  rw [h.run]
  simp only [HttpApp.respond, hencode, Option.bind_some, hseal, Option.map_some]

/-- The response to a call that is not admitted brings the error with the request id. -/
theorem HttpServer.refuse_error (e : Error) (freshId fallbackId : Text)
    (hcrates : s.crates.Documented)
    (h : s.Accepts request m id remaining attemptNumber service) :
    ∃ response, Echoes s.crates e id (some (uriPath request.uri)) response ∧
      s.refuse request freshId fallbackId e =
        some (if request.method = .head then { response with body := ⟨[], none⟩ } else response) := by
  obtain ⟨encoded, hencode, hechoes⟩ :=
    @echoes_encodeProblem s.crates e id (some (uriPath request.uri)) hcrates h.validId
  refine ⟨encoded, hechoes, ?_⟩
  unfold refuse HttpApp.call
  rw [h.run_refused]
  simp only [HttpApp.respond, Option.getD_some, hencode, Option.map_some]

end

end Fusen.Server
