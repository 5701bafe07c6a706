import Fusen.Wire.ControlsAgree
import Fusen.Wire.ProblemRoundTrip
import Fusen.Lib.Word

/-!
# The server's request pipeline (`server/http.rs`)

`run` is `try_handle_inner`: the checks before a route is matched are modelled as they
are, what lies behind them (readiness, routing, admission, the invocation itself) is
given by `Environment`.  `Progress` holds the two variables that an early error leaves
behind.  `call` encodes the error the pipeline ends with.
-/

namespace Fusen.Server

open Lib Contract Wire

/-! ## Errors -/

def uriTooLarge : Error :=
  .framework .invalidArgument "uri_too_large" "request URI exceeds the configured limit".toList

def tooManyHeaders : Error :=
  .framework .invalidArgument "too_many_headers" "request contains too many headers".toList

def headersTooLarge : Error :=
  .framework .invalidArgument "headers_too_large"
    "request headers exceed the configured byte limit".toList

def invalidHttpVersion : Error :=
  .framework .invalidArgument "invalid_http_version"
    "service invocation requires HTTP/1.1 or HTTP/2".toList

def httpVersionNotEnabled : Error :=
  .framework .invalidArgument "http_version_not_enabled"
    "HTTP version is not enabled by this server".toList

def invocationControlsNotSupported : Error :=
  .framework .invalidArgument "invocation_controls_not_supported"
    "endpoint does not support Fusen invocation control headers".toList

def deadlineExceeded : Error :=
  .framework .deadlineExceeded "deadline_exceeded" "service invocation deadline elapsed".toList

def notReady : Error :=
  .framework .unavailable "not_ready" "server has not completed startup".toList

def draining : Error :=
  (Error.framework .unavailable "draining" "server is draining".toList).withRetryHint .retryable

def requestPanicked : Error :=
  .framework .internal "request_panic" "request processing failed".toList

/-! ## The pipeline -/

structure HttpApp where
  enabled : HttpVersion → Bool
  invocationControls : Bool
  requestTimeout : Nat
  maxUriBytes : Nat
  maxHeaders : Nat
  maxHeaderBytes : Nat

inductive Readiness
  | notReady | ready | draining | stopped
deriving DecidableEq, Repr

structure MatchedIdentity where
  group : Option Text
  version : Option Text
  allowsRetries : Bool

/-- What the later stages of one request meet; `none` is a panic. -/
structure Environment where
  elapsed : Bool
  readiness : Readiness
  route : Option (Except Error MatchedIdentity)
  query : Except Error Unit
  admission : Option (Except Error Unit)
  /-- The invocation of the matched route. -/
  executed : Option (Except Error HttpResponse)

/-- The variables `known_request_id` and `controls_negotiated`. -/
structure Progress where
  knownRequestId : Option Text
  controls : Bool

/-- How `try_handle_inner` ends. -/
inductive Ending
  | response (r : HttpResponse)
  /-- An error of the matched invocation, of the request with this id. -/
  | failed (e : Error) (id : Text)
  | refused (e : Error)
  | panicked

def Ending.error : Ending → Option Error
  | .response _ => none
  | .failed e _ | .refused e => some e
  | .panicked => some requestPanicked

/-- The size of all names and values, with `checked_add`. -/
def headerBytes (entries : List (HeaderName × HeaderValue)) : Option Nat :=
  entries.foldlM (fun total e => do
    let total ← Usize.checkedAdd total e.1.text.length
    Usize.checkedAdd total e.2.bytes.length) 0

def HttpApp.validateHead (app : HttpApp) (request : HttpRequest) : Except Error Unit :=
  if (utf8 request.uri).length > app.maxUriBytes then .error uriTooLarge
  else if request.headers.entries.length > app.maxHeaders then .error tooManyHeaders
  else
    match headerBytes request.headers.entries with
    | none => .error headersTooLarge
    | some bytes => if bytes > app.maxHeaderBytes then .error headersTooLarge else .ok ()

def validateHttpVersion (version : HttpVersion) : Except Error Unit :=
  match version with
  | .http11 | .http2 => .ok ()
  | _ => .error invalidHttpVersion

/-- The checks before the control headers are looked at. -/
def HttpApp.acceptHead (app : HttpApp) (request : HttpRequest) : Except Error Unit := do
  app.validateHead request
  validateHttpVersion request.version
  if app.enabled request.version then .ok () else .error httpVersionNotEnabled

/-- The stages behind the match of a route. -/
def runMatched (request : HttpRequest) (control : RequestControl) (controls : Bool)
    (env : Environment) (route : MatchedIdentity) : Ending :=
  match (if controls then validateServiceControls request.headers route.group route.version
    else .ok ()) with
  | .error e => .refused e
  | .ok () =>
    match env.query with
    | .error e => .refused e
    | .ok () =>
      match validateAttempt control.attempt route.allowsRetries with
      | .error e => .refused e
      | .ok () =>
        match env.admission with
        | none => .panicked
        | some (.error e) => .refused e
        | some (.ok ()) =>
          match env.executed with
          | none => .failed requestPanicked control.requestId
          | some (.error e) => .failed e control.requestId
          | some (.ok r) => .response r

/-- The stages behind the control headers. -/
def runControlled (request : HttpRequest) (control : RequestControl) (controls : Bool)
    (env : Environment) : Ending :=
  if env.elapsed then .refused deadlineExceeded
  else
    match env.readiness with
    | .notReady => .refused notReady
    | .draining | .stopped => .refused draining
    | .ready =>
      match env.route with
      | none => .panicked
      | some (.error e) => .refused e
      | some (.ok route) => runMatched request control controls env route

/-- `freshId` is the random id of a request without one. -/
def HttpApp.run (app : HttpApp) (request : HttpRequest) (freshId : Text) (env : Environment) :
    Ending × Progress :=
  match app.acceptHead request with
  | .error e => (.refused e, ⟨none, false⟩)
  | .ok () =>
    let hasControls := hasInvocationControls request.headers
    if hasControls && !app.invocationControls then
      (.refused invocationControlsNotSupported, ⟨none, false⟩)
    else
      match parseRequestControl request.headers app.requestTimeout freshId with
      | .error e =>
        (.refused e,
          ⟨if hasControls then validatedRequestIdHeader request.headers else none, hasControls⟩)
      | .ok control =>
        (runControlled request control hasControls env, ⟨some control.requestId, hasControls⟩)

/-! ## The response -/

/-- The last step for a matched request: the id is set, or removed. -/
def sealResponse (r : HttpResponse) (id : Text) (controls : Bool) : Option HttpResponse :=
  if controls then
    (HeaderValue.fromStr id).map fun v => { r with headers := r.headers.insert requestId v }
  else some { r with headers := r.headers.remove requestId }

/-- The response of `try_handle`, or of `call` for a panic; `path` is the instance text.
`none` is a panic of the encoder. -/
def HttpApp.respond (app : HttpApp) (crates : Crates) (request : HttpRequest) (path fallbackId : Text)
    (progress : Progress) : Ending → Option HttpResponse
  | .response r => sealResponse r (progress.knownRequestId.getD fallbackId) progress.controls
  | .failed e id =>
    (encodeProblem crates e id (some path) progress.controls).bind fun r =>
      sealResponse r id progress.controls
  | .refused e =>
    encodeProblem crates e (progress.knownRequestId.getD fallbackId) (some path) progress.controls
  | .panicked =>
    encodeProblem crates requestPanicked ((validatedRequestIdHeader request.headers).getD fallbackId)
      none (app.invocationControls && hasInvocationControls request.headers)

def HttpApp.call (app : HttpApp) (crates : Crates) (request : HttpRequest)
    (path freshId fallbackId : Text) (env : Environment) : Option HttpResponse :=
  let (ending, progress) := app.run request freshId env
  (app.respond crates request path fallbackId progress ending).map fun r =>
    if request.method = .head then { r with body := ⟨[], none⟩ } else r

end Fusen.Server
