import Fusen.Lib.Decimal
import Fusen.Wire.Bodies
import Fusen.Wire.UriReference

/-!
# Problem details (`wire/problem.rs`)

`encodeProblem` writes an error as a response with a problem body, `decodeProblem` reads
such a response.  Third-party functions are the fields of `Crates`: the JSON parser
gives the document of a body, of which `ProblemDetails.ofJson` is the derived reader.
Errors carry no diagnostic source, and a body is its bytes.
-/

namespace Fusen.Wire

open Lib

/-! ## Third-party functions -/

structure Crates where
  canonicalReason : StatusCode → Option Text
  /-- The JSON document of a body. -/
  parseJson : List UInt8 → Option Json
  /-- An object of a document as an owned map; the recursion limit counts from the document. -/
  toMap : Json → Option ErrorDetails
  /-- Seconds since the epoch. -/
  parseHttpDate : Text → Option Nat
  isIpv6Addr : Text → Bool

/-! ## The body -/

structure ProblemDetails where
  typeUri : Text
  title : Text
  status : Nat
  detail : Option Text
  instance_ : Option Text
  code : Option ErrorCode
  requestId : Option Text
  retryable : Bool
  details : Option ErrorDetails

namespace ProblemDetails

def withoutOptionalFields (p : ProblemDetails) : ProblemDetails :=
  { p with detail := none, instance_ := none, details := none }

/-- A member that is left out when there is no value. -/
def optionalMember (name : String) (value : Option Json) : List (Text × Json) :=
  match value with
  | some v => [(name.toList, v)]
  | none => []

def members (p : ProblemDetails) : List (Text × Json) :=
  [("type".toList, .string p.typeUri), ("title".toList, .string p.title),
    ("status".toList, .number (decimal p.status))] ++
  optionalMember "detail" (p.detail.map .string) ++
  optionalMember "instance" (p.instance_.map .string) ++
  optionalMember "code" (p.code.map fun c => .string c.text) ++
  optionalMember "request_id" (p.requestId.map .string) ++
  [("retryable".toList, .bool p.retryable)] ++
  optionalMember "details" (p.details.map fun d => .object d.fields)

def toJson (p : ProblemDetails) : Json := .object p.members

def bytes (p : ProblemDetails) : List UInt8 := utf8 p.toJson.print

end ProblemDetails

/-! ## Reading a body -/

def textOf : Json → Option Text
  | .string s => some s
  | _ => none

def boolOf : Json → Option Bool
  | .bool b => some b
  | _ => none

/-- An unsigned 16-bit number; the text of a JSON number has no plus sign. -/
def u16Of : Json → Option Nat
  | .number text => parseUnsigned (2 ^ 16) text
  | _ => none

def errorCodeOf (v : Json) : Option ErrorCode := (textOf v).bind ErrorCode.new

/-- An optional value: `null` stands for none. -/
def optionOf {α : Type} (read : Json → Option α) : Json → Option (Option α)
  | .null => some none
  | v => (read v).map some

namespace ProblemDetails

def fieldNames : List Text :=
  ["type", "title", "status", "detail", "instance", "code", "request_id", "retryable",
    "details"].map String.toList

variable (crates : Crates)

/-- The derived reader, from what it has found for each field. -/
def ofMembers (typeUri title status : Option Json)
    (detail instance_ code requestId : Option Json) (retryable : Option Json)
    (details : Option Json) : Option ProblemDetails := do
  let typeUri ← typeUri.bind textOf
  let title ← title.bind textOf
  let status ← status.bind u16Of
  let detail ← optionOf textOf (detail.getD .null)
  let instance_ ← optionOf textOf (instance_.getD .null)
  let code ← optionOf errorCodeOf (code.getD .null)
  let requestId ← optionOf textOf (requestId.getD .null)
  let retryable ← boolOf (retryable.getD (.bool false))
  let details ← optionOf crates.toMap (details.getD .null)
  some { typeUri, title, status, detail, instance_, code, requestId, retryable, details }

/-- A known field may occur once; others are ignored.  The reader also takes an array
of all fields. -/
def ofJson : Json → Option ProblemDetails
  | .object fields =>
    if ((fields.map Prod.fst).filter fieldNames.contains).Nodup then
      let get := fun name : String => Assoc.get fields name.toList
      ofMembers crates (get "type") (get "title") (get "status") (get "detail") (get "instance")
        (get "code") (get "request_id") (get "retryable") (get "details")
    else none
  | .array [a, b, c, d, e, f, g, h, i] =>
    ofMembers crates (some a) (some b) (some c) (some d) (some e) (some f) (some g) (some h) (some i)
  | _ => none

def fromSlice (body : List UInt8) : Option ProblemDetails :=
  (crates.parseJson body).bind (ofJson crates)

end ProblemDetails

/-! ## Names of categories -/

def frameworkCategoryName : ErrorCategory → Option Text
  | .invalidArgument => some "invalid-argument".toList
  | .notFound => some "not-found".toList
  | .conflict => some "conflict".toList
  | .unauthenticated => some "unauthenticated".toList
  | .permissionDenied => some "permission-denied".toList
  | .payloadTooLarge => some "payload-too-large".toList
  | .resourceExhausted => some "resource-exhausted".toList
  | .unavailable => some "unavailable".toList
  | .deadlineExceeded => some "deadline-exceeded".toList
  | .cancelled => some "cancelled".toList
  | .unimplemented => some "unimplemented".toList
  | .internal => some "internal".toList
  | .dataLoss => some "data-loss".toList
  | .unknown => none

def frameworkCategoryFromName (name : Text) : Option ErrorCategory :=
  if name = "invalid-argument".toList then some .invalidArgument
  else if name = "not-found".toList then some .notFound
  else if name = "conflict".toList then some .conflict
  else if name = "unauthenticated".toList then some .unauthenticated
  else if name = "permission-denied".toList then some .permissionDenied
  else if name = "payload-too-large".toList then some .payloadTooLarge
  else if name = "resource-exhausted".toList then some .resourceExhausted
  else if name = "unavailable".toList then some .unavailable
  else if name = "deadline-exceeded".toList then some .deadlineExceeded
  else if name = "cancelled".toList then some .cancelled
  else if name = "unimplemented".toList then some .unimplemented
  else if name = "internal".toList then some .internal
  else if name = "data-loss".toList then some .dataLoss
  else none

/-! ## Encoding -/

def problemContentType : HeaderValue :=
  ⟨utf8 "application/problem+json".toList, by decide⟩

def retryAfter : HeaderName := ⟨"retry-after".toList, by decide⟩

def EMERGENCY_PROBLEM_LIMIT : Nat := 4 * 1024

def problemPrefix : Text := "urn:fusen:error:".toList

/-- The category's name on the wire and the status of the response. -/
def problemCategory (error : Error) : ErrorKind × Text × StatusCode :=
  if error.kind = .application then (.application, "application".toList, error.status)
  else
    match frameworkCategoryName error.category, error.category.canonicalStatus with
    | some name, some status => (.framework, name, status)
    | _, _ => (.framework, "internal".toList, .internalServerError)

def problemFromError (crates : Crates) (error : Error) (requestId : Text)
    (instance_ : Option Text) : ProblemDetails × StatusCode :=
  let (kind, categoryName, status) := problemCategory error
  ({ typeUri := problemPrefix ++ categoryName ++ ':' :: error.code.text
     title := (crates.canonicalReason status).getD "Service Invocation Error".toList
     status := status.code
     detail := some (if kind = .framework ∧ categoryName = "internal".toList then
       "Internal server error".toList else error.message)
     instance_
     code := some error.code
     requestId := some requestId
     retryable := kind = .framework && error.retryHint.isRetryable
     details := if kind = .application ∧ error.origin = .local_ then error.details else none },
   status)

/-- `none` is the panic of a minimal document that exceeds the limit. -/
def boundedProblem (problem : ProblemDetails) : Option (List UInt8) :=
  if problem.bytes.length ≤ EMERGENCY_PROBLEM_LIMIT then some problem.bytes
  else
    let minimal := problem.withoutOptionalFields
    if minimal.bytes.length ≤ EMERGENCY_PROBLEM_LIMIT then some minimal.bytes else none

/-- The delay of a `Retry-After` header, in whole seconds rounded up and saturating. -/
def retryAfterSeconds (delay : Nat) : Nat :=
  min (delay / 10 ^ 9 + if delay % 10 ^ 9 ≠ 0 then 1 else 0) (2 ^ 64 - 1)

def localRetryDelay (error : Error) : Option Nat :=
  if error.kind = .framework ∧ error.origin = .local_ then error.retryHint.retryAfter else none

/-- The headers before the content type and the request id are added. -/
def problemHeaders (error : Error) : Option HeaderMap :=
  let headers :=
    if error.origin = .local_ then responseHeadersWithoutControl error.headers else .empty
  match localRetryDelay error with
  | none => some headers
  | some delay => (HeaderValue.fromStr (decimal (retryAfterSeconds delay))).map fun v =>
      headers.insert retryAfter v

/-- The request-id header, when the service has invocation controls. -/
def insertRequestId (headers : HeaderMap) (id : Text) (invocationControls : Bool) :
    Option HeaderMap :=
  if invocationControls then (HeaderValue.fromStr id).map (headers.insert requestId) else some headers

/-- `none` is a panic. -/
def encodeProblem (crates : Crates) (error : Error) (requestId : Text) (instance_ : Option Text)
    (invocationControls : Bool) : Option HttpResponse := do
  let (problem, status) := problemFromError crates error requestId instance_
  let problem := if invocationControls then problem else { problem with requestId := none }
  let body ← boundedProblem problem
  let headers ← problemHeaders error
  let headers ← insertRequestId (headers.insert contentType problemContentType) requestId
    invocationControls
  some { status, headers, body := ⟨body, none⟩ }

/-! ## Retry hints -/

def isTransientStatus (status : StatusCode) : Bool :=
  match status.code with
  | 408 | 425 | 429 | 500 | 502 | 503 | 504 => true
  | _ => false

/-- Nanoseconds; a date in the past is no delay. -/
def parseRetryAfter (crates : Crates) (now : Nat) (headers : HeaderMap) : Option Nat :=
  match headers.getAll retryAfter with
  | [value] =>
    value.toStr.bind fun text =>
      match parseUnsigned (2 ^ 64) text with
      | some seconds => some (seconds * 10 ^ 9)
      | none => (crates.parseHttpDate text).map fun deadline => deadline * 10 ^ 9 - now
  | _ => none

def normalizedRetryHint (crates : Crates) (now : Nat) (kind : ErrorKind) (status : StatusCode)
    (headers : HeaderMap) : RetryHint :=
  if kind = .application ∨ isTransientStatus status = false then .never
  else
    match parseRetryAfter crates now headers with
    | some d => .after d
    | none => .retryable

/-! ## Decoding -/

structure ProblemSemantics where
  kind : ErrorKind
  category : ErrorCategory

def remoteHttpError : ErrorCode := ⟨"remote_http_error".toList, by decide⟩

def statusError (crates : Crates) (now : Nat) (status : StatusCode) (requestId : Text)
    (headers : HeaderMap) : Error :=
  let kind : ErrorKind := if status.isClientError then .application else .framework
  (Error.fromRemoteParts
    { kind, category := categoryFromStatus status, code := remoteHttpError
      message := (crates.canonicalReason status).getD "remote HTTP request failed".toList
      status, requestId, details := none
      retryHint := normalizedRetryHint crates now kind status headers }).withHeaders headers

def invalidProblemType (requestId : Text) : Error :=
  remoteProtocolError "invalid_problem_type"
    "Problem Details type, category and code are inconsistent" requestId

def invalidProblemStatus (message : String) (requestId : Text) : Error :=
  remoteProtocolError "invalid_problem_status" message requestId

def invalidProblemRequestId (requestId : Text) : Error :=
  remoteProtocolError "invalid_problem_request_id"
    "Problem Details request_id is invalid or does not match the logical invocation" requestId

def requestIdIsValid (value : Text) : Bool :=
  value ≠ [] && value.length ≤ 64 &&
    value.all fun c => c.isAlphanum || c == '.' || c == '_' || c == '-'

/-- The prefix written with other letter cases. -/
def isCaseVariant (typeUri : Text) : Bool :=
  let start := typeUri.take problemPrefix.length
  start.map Char.toLower = problemPrefix && start ≠ problemPrefix

/-- `parse_problem_type` behind the reserved prefix. -/
def parseReservedType (value : Text) (problem : ProblemDetails) (status : StatusCode)
    (requestId : Text) : Except Error ProblemSemantics :=
  match splitOnce ':' value with
  | none => .error (invalidProblemType requestId)
  | some (category, code) =>
    if category.isEmpty ∨ code.isEmpty ∨ code.contains ':' ∨
        problem.code.map ErrorCode.text ≠ some code then
      .error (invalidProblemType requestId)
    else if category = "application".toList then
      .ok ⟨.application, categoryFromStatus status⟩
    else
      match frameworkCategoryFromName category with
      | some category => .ok ⟨.framework, category⟩
      | none => .error (invalidProblemType requestId)

/-- `status` is the status of the problem, which has been compared with the response's. -/
def parseProblemType (crates : Crates) (problem : ProblemDetails) (status : StatusCode)
    (requestId : Text) : Except Error ProblemSemantics :=
  if isCaseVariant problem.typeUri then .error (invalidProblemType requestId)
  else
    match stripPrefix problemPrefix problem.typeUri with
    | some value => parseReservedType value problem status requestId
    | none =>
      if isValidUriReference crates.isIpv6Addr problem.typeUri then
        .ok ⟨if status.code < 500 then .application else .framework, categoryFromStatus status⟩
      else .error (invalidProblemType requestId)

def isReserved (typeUri : Text) : Bool := problemPrefix.isPrefixOf typeUri

def validateProblem (crates : Crates) (now : Nat) (status : StatusCode) (expectedId : Text)
    (problem : ProblemDetails) (strictControls : Bool) : Except Error ProblemSemantics :=
  if status.isClientError = false ∧ status.isServerError = false then
    .error (invalidProblemStatus "Problem Details requires an HTTP 4xx or 5xx status" expectedId)
  else if problem.status ≠ status.code then
    if isReserved problem.typeUri then
      .error (invalidProblemStatus "reserved Problem Details status must match the HTTP status"
        expectedId)
    else .error (statusError crates now status expectedId .empty)
  else if strictControls ∧
      ¬ problem.requestId.any (fun id => requestIdIsValid id && id = expectedId) then
    .error (invalidProblemRequestId expectedId)
  else
    match parseProblemType crates problem status expectedId with
    | .error e => .error e
    | .ok semantics =>
      if semantics.kind = .framework ∧ isReserved problem.typeUri ∧
          semantics.category.canonicalStatus ≠ some status then
        .error (invalidProblemStatus
          "Problem Details category does not match its canonical HTTP status" expectedId)
      else .ok semantics

def decodeProblem (crates : Crates) (now : Nat) (status : StatusCode) (expectedId : Text)
    (body : List UInt8) (headers : HeaderMap) (strictControls : Bool) : Error :=
  match ProblemDetails.fromSlice crates body with
  | none => statusError crates now status expectedId headers
  | some problem =>
    match validateProblem crates now status expectedId problem strictControls with
    | .error e => e.withHeaders headers
    | .ok semantics =>
      (Error.fromRemoteParts
        { kind := semantics.kind, category := semantics.category
          code := problem.code.getD remoteHttpError
          message := problem.detail.getD "remote service returned an error".toList
          status, requestId := problem.requestId.getD expectedId
          details := if semantics.kind = .application then problem.details else none
          retryHint := normalizedRetryHint crates now semantics.kind status headers }).withHeaders
        headers

/-! ## The request id of a response -/

def invalidResponseRequestId (message : String) (expectedId : Text) (headers : HeaderMap) : Error :=
  (remoteProtocolError "invalid_response_request_id" message expectedId).withHeaders
    (responseHeadersWithoutControl headers)

def validateResponseRequestId (required : Bool) (headers : HeaderMap) (expectedId : Text) :
    Except Error Unit :=
  if required = false then .ok ()
  else
    match headers.getAll requestId with
    | [] => .error (invalidResponseRequestId "response is missing negotiated x-request-id"
        expectedId headers)
    | [value] =>
      if (value.toStr.filter requestIdIsValid) = some expectedId then .ok ()
      else .error (invalidResponseRequestId
        "response x-request-id is invalid or does not match the logical invocation"
        expectedId headers)
    | _ => .error (invalidResponseRequestId "response x-request-id must appear at most once"
        expectedId headers)

/-- The headers that an error decoder sees. -/
def responseHeadersForDecoder (headers : HeaderMap) : HeaderMap :=
  [connection, te, trailer, transferEncoding, upgrade, keepAlive, requestId, timeoutMs, attempt,
    serviceGroup, serviceVersion].foldl HeaderMap.remove headers

end Fusen.Wire
