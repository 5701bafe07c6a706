import Fusen.Contract.Selector
import Fusen.Lib.Decimal
import Fusen.Resilience.Retry
import Fusen.Wire.Problem

/-!
# Control headers (`wire/mod.rs`)

`toRequest` writes the control headers of an attempt, `parseRequestControl` reads them.
A deadline is the time that is left, in nanoseconds; header values of numbers are
written in decimal.  The endpoint's URL has been parsed, its scheme is `http` or `https`.
-/

namespace Fusen.Wire

open Lib Contract

inductive HttpVersion
  | http09 | http10 | http11 | http2 | http3
deriving DecidableEq, Repr

def MAX_TIMEOUT_MS : Nat := 86400000

def nanosPerMilli : Nat := 1000000

/-! ## Errors -/

def duplicateControlHeader (name : HeaderName) : Error :=
  .framework .invalidArgument "duplicate_control_header"
    ("control header ".toList ++ name.text ++ " must appear at most once".toList)

def invalidRequestId : Error :=
  .framework .invalidArgument "invalid_request_id"
    "x-request-id must be 1-64 ASCII letters, digits, '.', '_' or '-'".toList

def invalidTimeout : Error :=
  .framework .invalidArgument "invalid_timeout"
    "x-fusen-timeout-ms must be an integer from 0 through 86400000".toList

def invalidAttempt : Error :=
  .framework .invalidArgument "invalid_attempt"
    "x-fusen-attempt must start at one and retries require an HTTP method that permits replay".toList

/-! ## The client -/

/-- The names that the request encoder may not set. -/
def refusedEncodedHeaders : List HeaderName :=
  [requestId, timeoutMs, attempt, serviceGroup, serviceVersion, contentLength, host, connection, te,
    trailer, transferEncoding, upgrade]

def rejectEncodedHeaders (headers : HeaderMap) : List HeaderName → Except Error Unit
  | [] => .ok ()
  | name :: names =>
    if headers.containsKey name then
      .error (.framework .invalidArgument "header_binding_conflict"
        ("HTTP header ".toList ++ name.text ++ " has more than one owner".toList))
    else rejectEncodedHeaders headers names

/-- `validate_encoded_request`; `isPathAndQuery` is the parser of the `http` crate. -/
def validateEncodedRequest (isPathAndQuery : Text → Bool) (method encodedMethod : Method)
    (pathAndQuery : Text) (headers : HeaderMap) : Except Error Unit :=
  if encodedMethod ≠ method then
    .error (.framework .invalidArgument "invalid_encoded_request_method"
      "request encoder method must match the canonical HTTP operation".toList)
  else if pathAndQuery.head? ≠ some '/' ∨ isPathAndQuery pathAndQuery = false then
    .error (.framework .invalidArgument "invalid_encoded_request_uri"
      "request encoder must produce a valid absolute-path URI without authority".toList)
  else rejectEncodedHeaders headers refusedEncodedHeaders

/-- An encoded request that was validated. -/
structure RequestTemplate where
  method : Method
  pathAndQuery : Text
  headers : HeaderMap
  body : List UInt8
  valid : rejectEncodedHeaders headers refusedEncodedHeaders = .ok ()

structure HttpRequest where
  method : Method
  version : HttpVersion
  uri : Text
  headers : HeaderMap
  body : List UInt8

/-- `isUri` is the parser of the `http` crate. -/
def endpointUri (isUri : Text → Bool) (endpoint pathAndQuery : Text) : Except Error Text :=
  let base := endpoint.rdropWhile (· == '/')
  let uri := base ++ (if pathAndQuery.head? = some '/' then pathAndQuery else '/' :: pathAndQuery)
  if isUri uri then .ok uri
  else .error (.internal "failed to construct canonical HTTP URI")

def insertControl (headers : HeaderMap) (name : HeaderName) (value : Text) (message : String) :
    Except Error HeaderMap :=
  match HeaderValue.fromStr value with
  | some value => .ok (headers.insert name value)
  | none => .error (.internal message)

def insertOptionalControl (headers : HeaderMap) (name : HeaderName) (value : Option Text)
    (message : String) : Except Error HeaderMap :=
  match value with
  | some value => insertControl headers name value message
  | none => .ok headers

/-- The milliseconds of a request's timeout header. -/
def timeoutMillis (remaining : Nat) : Nat := min (remaining / nanosPerMilli) MAX_TIMEOUT_MS

def insertControls (headers : HeaderMap) (id : Text) (remaining attemptNumber : Nat)
    (service : ServiceSelector) : Except Error HeaderMap := do
  let headers ← insertControl headers requestId id "invalid generated request ID"
  let headers ← insertControl headers timeoutMs (decimal (timeoutMillis remaining))
    "invalid timeout header"
  let headers ← insertControl headers attempt (decimal attemptNumber) "invalid attempt header"
  let headers ← insertOptionalControl headers serviceGroup service.group "invalid service group"
  insertOptionalControl headers serviceVersion service.version "invalid service version"

def RequestTemplate.toRequest (isUri : Text → Bool) (template : RequestTemplate) (endpoint : Text)
    (version : HttpVersion) (id : Text) (remaining attemptNumber : Nat) (invocationControls : Bool)
    (service : ServiceSelector) : Except Error HttpRequest := do
  let uri ← endpointUri isUri endpoint template.pathAndQuery
  let headers ← if invocationControls then
      insertControls template.headers id remaining attemptNumber service
    else .ok template.headers
  .ok { method := template.method, version, uri, headers, body := template.body }

/-! ## The server -/

def oneHeader (headers : HeaderMap) (name : HeaderName) : Except Error (Option HeaderValue) :=
  match headers.getAll name with
  | [] => .ok none
  | [value] => .ok (some value)
  | _ => .error (duplicateControlHeader name)

structure RequestControl where
  requestId : Text
  timeout : Nat
  attempt : Nat

def validateRequestId (value : Text) : Except Error Unit :=
  if requestIdIsValid value then .ok () else .error invalidRequestId

def validatedRequestIdHeader (headers : HeaderMap) : Option Text :=
  match headers.getAll requestId with
  | [value] => value.toStr.filter requestIdIsValid
  | _ => none

def parseRequestId (freshId : Text) : Option HeaderValue → Except Error Text
  | none => .ok freshId
  | some value =>
    match value.toStr with
    | none => .error invalidRequestId
    | some text => do
      validateRequestId text
      .ok text

def parseTimeout (localTimeout : Nat) : Option HeaderValue → Except Error Nat
  | none => .ok localTimeout
  | some value =>
    match value.toStr.bind (parseUnsigned (2 ^ 64)) with
    | none => .error invalidTimeout
    | some millis =>
      if millis > MAX_TIMEOUT_MS then .error invalidTimeout else .ok (millis * nanosPerMilli)

def parseAttempt : Option HeaderValue → Except Error Nat
  | none => .ok 1
  | some value =>
    match (value.toStr.bind (parseUnsigned (2 ^ 8))).filter (0 < ·) with
    | none => .error invalidAttempt
    | some attemptNumber => .ok attemptNumber

/-- `freshId` is the random id of a request without one. -/
def parseRequestControl (headers : HeaderMap) (localTimeout : Nat) (freshId : Text) :
    Except Error RequestControl := do
  let id ← parseRequestId freshId (← oneHeader headers requestId)
  let wireTimeout ← parseTimeout localTimeout (← oneHeader headers timeoutMs)
  let attemptNumber ← parseAttempt (← oneHeader headers attempt)
  .ok { requestId := id, timeout := min localTimeout wireTimeout, attempt := attemptNumber }

def validateAttempt (attemptNumber : Nat) (methodAllowsRetries : Bool) : Except Error Unit :=
  if attemptNumber > 1 ∧ methodAllowsRetries = false then .error invalidAttempt else .ok ()

/-! ### `server/http.rs` -/

def hasInvocationControls (headers : HeaderMap) : Bool :=
  [requestId, timeoutMs, attempt, serviceGroup, serviceVersion].any headers.containsKey

def validateServiceControl (headers : HeaderMap) (name : HeaderName) (expected : Option Text)
    (mismatch : Error) : Except Error Unit :=
  match headers.getAll name with
  | [] => if expected = none then .ok () else .error mismatch
  | [value] =>
    match value.toStr with
    | none => .error mismatch
    | some actual => if expected = some actual then .ok () else .error mismatch
  | _ => .error mismatch

def serviceGroupMismatch : Error :=
  .framework .invalidArgument "service_group_mismatch"
    "x-fusen-service-group does not match the selected service".toList

def serviceVersionMismatch : Error :=
  .framework .invalidArgument "service_version_mismatch"
    "x-fusen-service-version does not match the selected service".toList

def validateServiceControls (headers : HeaderMap) (expectedGroup expectedVersion : Option Text) :
    Except Error Unit := do
  validateServiceControl headers serviceGroup expectedGroup serviceGroupMismatch
  validateServiceControl headers serviceVersion expectedVersion serviceVersionMismatch

end Fusen.Wire
