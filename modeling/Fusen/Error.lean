import Fusen.Http
import Fusen.Lib.JsonRead

/-!
# Invocation errors (`error/invocation.rs`)

`Error` is what every stage of an invocation fails with.  Its public constructors
are `application`, `applicationStatus` and `local_`; the runtime also builds errors
with `framework` and `fromRemoteParts`.  The diagnostic source of an error is left
out: nothing reads it.
-/

namespace Fusen

open Lib

/-! ## Codes -/

/-- Lower-case snake case; `previous` is the byte before. -/
def isSnakeCase (previous : Option Char) : Text → Bool
  | [] => true
  | c :: s =>
    (c.isLower || c.isDigit || (c == '_' && previous.isSome && previous != some '_')) &&
      isSnakeCase (some c) s

def isErrorCode (s : Text) : Bool :=
  s.length ≤ 64 && s.head?.any Char.isLower && s.getLast? != some '_' && isSnakeCase none s

structure ErrorCode where
  text : Text
  valid : isErrorCode text = true
deriving DecidableEq

def ErrorCode.new (s : Text) : Option ErrorCode :=
  if h : isErrorCode s = true then some ⟨s, h⟩ else none

/-! ## Classification -/

inductive ErrorKind
  | application | framework
deriving DecidableEq, Repr

inductive ErrorCategory
  | invalidArgument | notFound | conflict | unauthenticated | permissionDenied | payloadTooLarge
  | resourceExhausted | unavailable | deadlineExceeded | cancelled | unimplemented | internal
  | dataLoss | unknown
deriving DecidableEq, Repr

def ErrorCategory.canonicalStatus : ErrorCategory → Option StatusCode
  | .invalidArgument => some .badRequest
  | .notFound => some .notFound
  | .conflict => some .conflict
  | .unauthenticated => some .unauthorized
  | .permissionDenied => some .forbidden
  | .payloadTooLarge => some .payloadTooLarge
  | .resourceExhausted => some .tooManyRequests
  | .unavailable => some .serviceUnavailable
  | .deadlineExceeded => some .gatewayTimeout
  | .cancelled => some ⟨499, by decide⟩
  | .unimplemented => some .notImplemented
  | .internal => some .internalServerError
  | .dataLoss => some .badGateway
  | .unknown => none

def categoryFromStatus (status : StatusCode) : ErrorCategory :=
  match status.code with
  | 400 | 405 => .invalidArgument
  | 401 => .unauthenticated
  | 403 => .permissionDenied
  | 404 => .notFound
  | 409 => .conflict
  | 413 => .payloadTooLarge
  | 429 => .resourceExhausted
  | 503 => .unavailable
  | 504 | 408 => .deadlineExceeded
  | 501 => .unimplemented
  | 502 => .dataLoss
  | 500 => .internal
  | 499 => .cancelled
  | _ => .unknown

/-- The canonical status of a category leads back to it. -/
theorem categoryFromStatus_canonicalStatus {category : ErrorCategory} {status : StatusCode}
    (h : category.canonicalStatus = some status) : categoryFromStatus status = category := by
  cases category <;> cases h <;> rfl

inductive ErrorOrigin
  | local_ | remote
deriving DecidableEq, Repr

/-- `after` is in nanoseconds. -/
inductive RetryHint
  | never | retryable | after (duration : Nat)
deriving DecidableEq, Repr

def RetryHint.isRetryable : RetryHint → Bool
  | .never => false
  | .retryable | .after _ => true

def RetryHint.retryAfter : RetryHint → Option Nat
  | .after d => some d
  | .never | .retryable => none

/-! ## Errors -/

structure ErrorDetails where
  fields : List (Text × Json)
  distinct : (Json.object fields).DistinctKeys

structure Error where
  kind : ErrorKind
  category : ErrorCategory
  code : ErrorCode
  message : Text
  status : StatusCode
  origin : ErrorOrigin
  requestId : Option Text
  attempts : Nat
  headers : HeaderMap
  details : Option ErrorDetails
  retryHint : RetryHint

inductive ErrorConstructionError
  | invalidCode (value : Text)
  | nonCanonicalCategory (category : ErrorCategory)
  | invalidApplicationStatus (status : StatusCode)

namespace Error

/-- A fresh local error without headers, details or retry hint. -/
def fresh (kind : ErrorKind) (category : ErrorCategory) (code : ErrorCode) (message : Text)
    (status : StatusCode) : Error where
  kind := kind
  category := category
  code := code
  message := message
  status := status
  origin := .local_
  requestId := none
  attempts := 0
  headers := .empty
  details := none
  retryHint := .never

def applicationParts (category : ErrorCategory) (status : StatusCode) (code message : Text) :
    Except ErrorConstructionError Error :=
  match ErrorCode.new code with
  | some code => .ok (fresh .application category code message status)
  | none => .error (.invalidCode code)

def application (category : ErrorCategory) (code message : Text) :
    Except ErrorConstructionError Error :=
  match category.canonicalStatus with
  | some status => applicationParts category status code message
  | none => .error (.nonCanonicalCategory category)

def applicationStatus (status : StatusCode) (code message : Text) :
    Except ErrorConstructionError Error :=
  if !status.isClientError && !status.isServerError then .error (.invalidApplicationStatus status)
  else applicationParts (categoryFromStatus status) status code message

def local_ (category : ErrorCategory) (code message : Text) :
    Except ErrorConstructionError Error :=
  match category.canonicalStatus with
  | some status =>
    match ErrorCode.new code with
    | some code => .ok (fresh .framework category code message status)
    | none => .error (.invalidCode code)
  | none => .error (.nonCanonicalCategory category)

/-- The runtime's own errors, whose code and category are fixed in the source. -/
def framework (category : ErrorCategory) (code : String) (message : Text)
    (hs : category.canonicalStatus.isSome = true := by exact (rfl : true = true))
    (hc : isErrorCode code.toList = true := by exact (rfl : true = true)) : Error :=
  fresh .framework category ⟨code.toList, hc⟩ message (category.canonicalStatus.get hs)

def internal (message : String) : Error := framework .internal "internal_error" message.toList

def invalidResult (message : String) : Error := framework .dataLoss "invalid_result" message.toList

structure RemoteErrorParts where
  kind : ErrorKind
  category : ErrorCategory
  code : ErrorCode
  message : Text
  status : StatusCode
  requestId : Text
  details : Option ErrorDetails
  retryHint : RetryHint

def fromRemoteParts (parts : RemoteErrorParts) : Error where
  kind := parts.kind
  category := parts.category
  code := parts.code
  message := parts.message
  status := parts.status
  origin := .remote
  requestId := some parts.requestId
  attempts := 0
  headers := .empty
  details := parts.details
  retryHint := if parts.kind = .application then .never else parts.retryHint

def withAttempts (e : Error) (attempts : Nat) : Error := { e with attempts := attempts }
def withRequestId (e : Error) (id : Text) : Error := { e with requestId := some id }
def withRemoteOrigin (e : Error) : Error := { e with origin := .remote }
def withLocalOrigin (e : Error) : Error := { e with origin := .local_ }
def withHeaders (e : Error) (headers : HeaderMap) : Error := { e with headers := headers }
def withDetails (e : Error) (details : ErrorDetails) : Error := { e with details := some details }

/-- Application errors keep `never`. -/
def withRetryHint (e : Error) (hint : RetryHint) : Error :=
  if e.kind ≠ .application then { e with retryHint := hint } else e

/-! ## What is public -/

/-- The errors that the public constructors and setters build.  A number of a JSON value
prints as a JSON number. -/
inductive Built : Error → Prop
  | application {category : ErrorCategory} {code message : Text} {e : Error}
      (h : application category code message = .ok e) : Built e
  | applicationStatus {status : StatusCode} {code message : Text} {e : Error}
      (h : applicationStatus status code message = .ok e) : Built e
  | local_ {category : ErrorCategory} {code message : Text} {e : Error}
      (h : local_ category code message = .ok e) : Built e
  | withHeaders {e : Error} (h : Built e) (headers : HeaderMap) : Built (e.withHeaders headers)
  | withDetails {e : Error} (h : Built e) (details : ErrorDetails)
      (hnumbers : (Json.object details.fields).Numbers) : Built (e.withDetails details)
  | withRetryHint {e : Error} (h : Built e) (hint : RetryHint) : Built (e.withRetryHint hint)

/-- What holds of every error: an application error has the hint `never` and an error status. -/
structure Sound (e : Error) : Prop where
  hint : e.kind = .application → e.retryHint = .never
  status : e.kind = .application → e.status.isClientError = true ∨ e.status.isServerError = true
  numbers : ∀ d ∈ e.details, (Json.object d.fields).Numbers

/-- What holds of an error beside, if it was built here: its category fits its status. -/
structure Canonical (e : Error) : Prop where
  origin : e.origin = .local_
  application : e.kind = .application → e.category = categoryFromStatus e.status
  framework : e.kind = .framework → e.category.canonicalStatus = some e.status

theorem canonicalStatus_isError {category : ErrorCategory} {status : StatusCode}
    (h : category.canonicalStatus = some status) :
    status.isClientError = true ∨ status.isServerError = true := by
  cases category <;> cases h <;> decide

theorem applicationParts_ok {category : ErrorCategory} {status : StatusCode} {code message : Text}
    {e : Error} (h : applicationParts category status code message = .ok e) :
    ∃ code, e = fresh .application category code message status := by
  unfold applicationParts at h
  split at h <;> cases h
  exact ⟨_, rfl⟩

theorem sound_of_application {category : ErrorCategory} {status : StatusCode}
    {code message : Text} {e : Error} (h : applicationParts category status code message = .ok e)
    (hstatus : status.isClientError = true ∨ status.isServerError = true)
    (hcategory : category = categoryFromStatus status) : e.Sound ∧ e.Canonical := by
  obtain ⟨code, rfl⟩ := applicationParts_ok h
  exact ⟨⟨fun _ => rfl, fun _ => hstatus, fun _ hd => nomatch hd⟩, ⟨rfl, fun _ => hcategory, nofun⟩⟩

theorem sound_of_built {e : Error} (h : e.Built) : e.Sound ∧ e.Canonical := by
  induction h with
  | application h =>
    unfold application at h
    split at h
    · rename_i status hstatus
      exact sound_of_application h (canonicalStatus_isError hstatus)
        (categoryFromStatus_canonicalStatus hstatus).symm
    · cases h
  | applicationStatus h =>
    unfold applicationStatus at h
    split at h
    · cases h
    · rename_i hstatus
      refine sound_of_application h ?_ rfl
      simpa [or_iff_not_imp_left] using hstatus
  | local_ h =>
    unfold local_ at h
    split at h
    · rename_i status hstatus
      split at h <;> cases h
      exact ⟨⟨nofun, nofun, fun _ hd => nomatch hd⟩, ⟨rfl, nofun, fun _ => hstatus⟩⟩
    · cases h
  | withHeaders h headers ih =>
    exact ⟨⟨ih.1.hint, ih.1.status, ih.1.numbers⟩, ⟨ih.2.origin, ih.2.application, ih.2.framework⟩⟩
  | withDetails h details hnumbers ih =>
    refine ⟨⟨ih.1.hint, ih.1.status, ?_⟩, ⟨ih.2.origin, ih.2.application, ih.2.framework⟩⟩
    rintro d ⟨⟩
    exact hnumbers
  | withRetryHint h hint ih =>
    unfold withRetryHint
    split
    · rename_i hkind
      exact ⟨⟨fun h => absurd h hkind, ih.1.status, ih.1.numbers⟩,
        ⟨ih.2.origin, ih.2.application, ih.2.framework⟩⟩
    · exact ih

end Error

end Fusen
