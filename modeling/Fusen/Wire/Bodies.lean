import Fusen.Runtime.BudgetPrograms
import Fusen.Wire.Headers

/-!
# Bodies within a byte budget

The code that holds permits: the budgeted writer of a response, `encodeSuccess`,
`readBodyWithRole` and the decoding of a response, as programs over the budget.
A permit that goes out of scope is dropped where the source's scope ends.
-/

namespace Fusen.Wire

open Lib Fusen.Runtime

/-! ## Errors -/

def remoteProtocolError (code : String) (message : String) (requestId : Text)
    (hc : isErrorCode code.toList = true := by decide) : Error :=
  .fromRemoteParts
    { kind := .framework, category := .dataLoss, code := ⟨code.toList, hc⟩,
      message := message.toList, status := .badGateway, requestId, details := none,
      retryHint := .never }

/-- `response_budget_exhausted` of `context.rs`. -/
def resultBudgetExhausted : Error :=
  .framework .resourceExhausted "response_byte_budget_exhausted"
    "response byte budget is exhausted".toList

def responseBudgetExhausted : Error :=
  .framework .resourceExhausted "response_byte_budget_exhausted"
    "server response byte budget is exhausted".toList

def responseTooLarge : Error :=
  .framework .internal "response_too_large"
    "encoded invocation response exceeds the configured limit".toList

def payloadTooLarge : Error :=
  .framework .payloadTooLarge "payload_too_large"
    "request or response body exceeds the configured limit".toList

def clientResponseBudgetExhausted : Error :=
  .framework .resourceExhausted "response_byte_budget_exhausted"
    "client response byte budget is exhausted".toList

def clientResponseTooLarge : Error :=
  .framework .payloadTooLarge "response_too_large"
    "response body exceeds the configured limit".toList

def invalidProducesMediaType : Error :=
  .framework .internal "invalid_produces_media_type"
    "configured response media type is not a valid Content-Type".toList

inductive BodyReadRole where
  | request
  | response (requestId : Text)

namespace BodyReadRole

def tooLarge : BodyReadRole → Error
  | .request => payloadTooLarge
  | .response _ => clientResponseTooLarge

def budgetExhausted : BodyReadRole → Error
  | .request =>
    .framework .resourceExhausted "body_byte_budget_exhausted"
      "body byte budget is exhausted".toList
  | .response _ => clientResponseBudgetExhausted

def streamFailed : BodyReadRole → Error
  | .request => (Error.internal "HTTP body stream failed").withRetryHint .retryable
  | .response requestId =>
    remoteProtocolError "response_body_stream_failed"
      "remote response body stream failed before completion" requestId

def contentLengthMismatch : BodyReadRole → Error
  | .request =>
    .framework .invalidArgument "content_length_mismatch"
      "request body length does not match Content-Length".toList
  | .response requestId =>
    remoteProtocolError "content_length_mismatch"
      "response body length does not match Content-Length" requestId

end BodyReadRole

/-! ## Reading a body -/

/-- What polling a body gives next: a frame with data, one without, a transport
error; or the reading future is dropped while it waits. -/
inductive BodyEvent where
  | data (chunk : List UInt8)
  | trailers
  | failed
  | dropped

/-- The end of a future: dropped before it was done, or done with a result. -/
abbrev Awaited (α : Type) := Option (Except Error α)

def CHUNK_RESERVATION : Nat := 4 * 1024

/-- Drops the permit and ends with `r`. -/
def abandon {α : Type} (permit : Nat) (r : α) : Prog α := .drop permit (.pure r)

/-- The loop of `read_body_with_role` over the frames to come. -/
def readFrames (contentLength : Option Nat) (maxBody : Nat) (role : BodyReadRole) (permit : Nat) :
    List BodyEvent → List UInt8 → Nat → Prog (Awaited (List UInt8 × Nat))
  | [], bytes, _ =>
    if contentLength.any (· ≠ bytes.length) then
      abandon permit (some (.error role.contentLengthMismatch))
    else .pure (some (.ok (bytes, permit)))
  | .failed :: _, _, _ => abandon permit (some (.error role.streamFailed))
  | .dropped :: _, _, _ => abandon permit none
  | .trailers :: events, bytes, reserved =>
    readFrames contentLength maxBody role permit events bytes reserved
  | .data chunk :: events, bytes, reserved =>
    match Usize.checkedAdd bytes.length chunk.length with
    | none => abandon permit (some (.error role.tooLarge))
    | some next =>
      if next > maxBody then abandon permit (some (.error role.tooLarge))
      else if next > reserved then
        let needed := next - reserved
        let growth := Usize.wrappingMul ((needed + (CHUNK_RESERVATION - 1)) / CHUNK_RESERVATION)
          CHUNK_RESERVATION
        .grow permit growth fun ok =>
          if ok then
            readFrames contentLength maxBody role permit events (bytes ++ chunk) (reserved + growth)
          else abandon permit (some (.error role.budgetExhausted))
      else readFrames contentLength maxBody role permit events (bytes ++ chunk) reserved

def readBodyWithRole (body : List BodyEvent) (contentLength : Option Nat) (maxBody budget : Nat)
    (role : BodyReadRole) : Prog (Awaited (List UInt8 × Nat)) :=
  if contentLength.any (· > maxBody) then .pure (some (.error role.tooLarge))
  else
    let initialReservation := contentLength.getD 0
    .tryReserve budget initialReservation fun
      | none => .pure (some (.error role.budgetExhausted))
      | some permit => readFrames contentLength maxBody role permit body [] initialReservation

/-! ## Bodies of responses -/

/-- `Body`: encoded bytes and the permit that accounts for them. -/
structure Body where
  bytes : List UInt8
  permit : Option Nat

/-- Drops the permit of a body that has one. -/
def Prog.dropAll {α : Type} (permit : Option Nat) (r : α) : Prog α :=
  match permit with
  | none => .pure r
  | some id => abandon id r

/-- `Body::hold_budget`: the permit takes the place of an earlier one. -/
def Body.holdBudget (body : Body) (permit : Nat) : Prog Body :=
  Prog.dropAll body.permit { body with permit := some permit }

def holdDecodedResponseBudget (body : Body) (permit maxBody : Nat) :
    Prog (Except Error Unit × Body) :=
  if body.bytes.length > maxBody then abandon permit (.error clientResponseTooLarge, body)
  else
    .bytes permit fun n =>
      let missing := body.bytes.length - n
      if missing > 0 then
        .grow permit missing fun ok =>
          if ok then body.holdBudget permit >>= fun body => .pure (.ok (), body)
          else abandon permit (.error clientResponseBudgetExhausted, body)
      else body.holdBudget permit >>= fun body => .pure (.ok (), body)

/-! ## Encoding -/

inductive BudgetedWriteFailure where
  | limitExceeded
  | budgetExhausted
  deriving DecidableEq, Repr

structure BudgetedWriter where
  bytes : List UInt8
  limit : Nat
  permit : Nat
  failure : Option BudgetedWriteFailure

namespace BudgetedWriter

def new (limit budget wireOverhead : Nat) : Prog (Except BudgetedWriteFailure BudgetedWriter) :=
  .tryReserve budget wireOverhead fun
    | none => .pure (.error .budgetExhausted)
    | some permit => .pure (.ok ⟨[], limit, permit, none⟩)

/-- `write`: whether it succeeded, which takes the whole buffer, and the writer after it. -/
def write (w : BudgetedWriter) (buffer : List UInt8) : Prog (Bool × BudgetedWriter) :=
  if (Usize.checkedAdd w.bytes.length buffer.length).all (· > w.limit) then
    .pure (false, { w with failure := some .limitExceeded })
  else
    .grow w.permit buffer.length fun ok =>
      if ok then .pure (true, { w with bytes := w.bytes ++ buffer })
      else .pure (false, { w with failure := some .budgetExhausted })

/-- A serializer that writes the buffers one by one with `write_all`, which does
not call `write` for an empty one, and stops at the first failure. -/
def writeAll (w : BudgetedWriter) : List (List UInt8) → Prog (Bool × BudgetedWriter)
  | [] => .pure (true, w)
  | [] :: buffers => w.writeAll buffers
  | buffer :: buffers =>
    w.write buffer >>= fun
      | (true, w) => w.writeAll buffers
      | (false, w) => .pure (false, w)

end BudgetedWriter

/-- What serializing a value does: the buffers it writes, and whether its own
`Serialize` fails after them. -/
structure Serialization where
  buffers : List (List UInt8)
  fails : Bool

/-- `Response::success_with_budget` -/
def successWithBudget (value : Serialization) (limit wireOverhead budget : Nat) :
    Prog (Except Error Body) :=
  BudgetedWriter.new limit budget wireOverhead >>= fun
    | .error _ => .pure (.error resultBudgetExhausted)
    | .ok writer =>
      writer.writeAll value.buffers >>= fun (written, writer) =>
        if written && !value.fails then .pure (.ok ⟨writer.bytes, some writer.permit⟩)
        else
          abandon writer.permit <| .error <|
            match writer.failure with
            | some .limitExceeded => responseTooLarge
            | some .budgetExhausted => resultBudgetExhausted
            | none => .internal "failed to serialize invocation response"

/-- `GuardedBody` before its first poll: the bytes and the permit of the body. -/
structure GuardedBody where
  bytes : List UInt8
  permit : Option Nat

structure HttpResponse where
  status : StatusCode
  headers : HeaderMap
  body : GuardedBody

/-- The names `response_headers_without_control` removes. -/
def controlHeaders : List HeaderName :=
  [connection, contentType, contentLength, te, trailer, transferEncoding, upgrade, requestId,
    timeoutMs, attempt, serviceGroup, serviceVersion]

def responseHeadersWithoutControl (headers : HeaderMap) : HeaderMap :=
  (controlHeaders.foldl HeaderMap.remove headers).remove keepAlive

/-- An encoded response before it goes to the wire. -/
structure Response where
  status : StatusCode
  headers : HeaderMap
  body : Body

/-- The end of `encode_success`, once the permit is there: the response, or the
media type that cannot be a header. -/
def encodeWithPermit (response : Response) (produces : Text) (suppressBody : Bool) (permit : Nat) :
    Prog (Except Error HttpResponse) :=
  let headers := responseHeadersWithoutControl response.headers
  let body : GuardedBody := ⟨if suppressBody then [] else response.body.bytes, some permit⟩
  if suppressBody then .pure (.ok ⟨response.status, headers, body⟩)
  else
    match HeaderValue.fromStr produces with
    | some value => .pure (.ok ⟨response.status, headers.insert contentType value, body⟩)
    | none => abandon permit (.error invalidProducesMediaType)

/-- `encode_success` of a response without a permit of this budget. -/
def encodeReserving (response : Response) (produces : Text) (suppressBody : Bool)
    (total budget : Nat) : Prog (Except Error HttpResponse) :=
  .tryReserve budget total fun
    | none => .pure (.error responseBudgetExhausted)
    | some permit => encodeWithPermit response produces suppressBody permit

/-- `encode_success` of a response with a permit of this budget. -/
def encodeGrowing (response : Response) (produces : Text) (suppressBody : Bool)
    (total permit : Nat) : Prog (Except Error HttpResponse) :=
  .bytes permit fun n =>
    let missing := total - n
    if missing > 0 then
      .grow permit missing fun ok =>
        if ok then encodeWithPermit response produces suppressBody permit
        else abandon permit (.error responseBudgetExhausted)
    else encodeWithPermit response produces suppressBody permit

/-- The body is also suppressed for `NO_CONTENT` and `RESET_CONTENT`. -/
def Response.suppressesBody (response : Response) (suppressBody : Bool) : Bool :=
  suppressBody || response.status.code = 204 || response.status.code = 205

def Response.total (response : Response) (suppressBody : Bool) : Nat :=
  if suppressBody then 0 else response.body.bytes.length

/-- A permit of another budget is dropped at the end. -/
def encodeSuccess (response : Response) (produces : Text) (suppressBody : Bool)
    (maxBody budget : Nat) : Prog (Except Error HttpResponse) :=
  let suppressBody := response.suppressesBody suppressBody
  let total := response.total suppressBody
  if total > maxBody then Prog.dropAll response.body.permit (.error responseTooLarge)
  else
    match response.body.permit with
    | none => encodeReserving response produces suppressBody total budget
    | some permit =>
      .belongsTo permit budget fun own =>
        if own then encodeGrowing response produces suppressBody total permit
        else
          encodeReserving response produces suppressBody total budget >>= fun r =>
            abandon permit r

/-! ## Decoding a response -/

/-- A response head with what the code makes of it outside the budget: the checks
of the version and the request id, the `Content-Length`, and the decoders, a
panic of which has become an error. -/
structure ResponseHead where
  head : Bool
  status : StatusCode
  requestId : Text
  checked : Except Error Unit
  contentLength : Except Error (Option Nat)
  decodeError : List UInt8 → Error
  decode : List UInt8 → Except Error (List UInt8)

def nullBytes : List UInt8 := utf8 "null".toList

/-- The end of `decode_http_response`, once the decoder has given a body. -/
def holdDecoded (bytes : List UInt8) (permit maxBody : Nat) : Prog (Awaited Body) :=
  holdDecodedResponseBudget ⟨bytes, none⟩ permit maxBody >>= fun
    | (.ok _, body) => .pure (some (.ok body))
    | (.error e, _) => .pure (some (.error e))

def decodeHttpResponse (response : ResponseHead) (body : List BodyEvent) (maxBody budget : Nat) :
    Prog (Awaited Body) :=
  match response.checked with
  | .error e => .pure (some (.error e))
  | .ok _ =>
    if response.head then
      if response.status.isSuccess then
        .tryReserve budget 0 fun
          | none => .pure (some (.error clientResponseBudgetExhausted))
          | some permit => .pure (some (.ok ⟨nullBytes, some permit⟩))
      else .pure (some (.error (response.decodeError [])))
    else if response.status.code = 204 || response.status.code = 205 then
      match response.decode nullBytes with
      | .error e => .pure (some (.error e))
      | .ok bytes =>
        .tryReserve budget 0 fun
          | none => .pure (some (.error clientResponseBudgetExhausted))
          | some permit => holdDecoded bytes permit maxBody
    else
      match response.contentLength with
      | .error e => .pure (some (.error e))
      | .ok contentLength =>
        readBodyWithRole body contentLength maxBody budget (.response response.requestId) >>= fun
          | none => .pure none
          | some (.error e) => .pure (some (.error e))
          | some (.ok (bytes, permit)) =>
            if response.status.isSuccess then
              match response.decode bytes with
              | .error e => abandon permit (some (.error e))
              | .ok bytes => holdDecoded bytes permit maxBody
            else abandon permit (some (.error (response.decodeError bytes)))

end Fusen.Wire
