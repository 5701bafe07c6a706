import Fusen.Lib.Result

/-!
# Limits of requests (`server/config.rs`, `client/config.rs`)

The admission parts of both configurations and their checks.  `fits_of_validateRequest`
and `fits_of_validateAdmission` say what an accepted one promises about bodies: the bytes
in flight suffice for one body of the largest size.
-/

namespace Fusen.Runtime

inductive ConfigValidationErrorKind where
  | outOfRange
  | inconsistent
  deriving DecidableEq, Repr

structure ConfigValidationError where
  kind : ConfigValidationErrorKind
  fieldPath : String
  reason : String
  deriving DecidableEq, Repr

def outOfRange (fieldPath reason : String) : ConfigValidationError :=
  ⟨.outOfRange, fieldPath, reason⟩

def inconsistent (fieldPath reason : String) : ConfigValidationError :=
  ⟨.inconsistent, fieldPath, reason⟩

abbrev Validation := Except ConfigValidationError Unit

def positiveDuration (value : Nat) (fieldPath : String) : Validation :=
  if value = 0 then .error (outOfRange fieldPath "must be greater than zero") else .ok ()

def positiveUsize (value : Nat) (fieldPath : String) : Validation :=
  if value = 0 then .error (outOfRange fieldPath "must be greater than zero") else .ok ()

/-- The check of two fields of which the first must be at least the second. -/
def atLeast (value least : Nat) (fieldPath reason : String) : Validation :=
  if value < least then .error (inconsistent fieldPath reason) else .ok ()

/-- The check of a queue that has places. -/
def queueWaits (capacity maxWait : Nat) (fieldPath reason : String) : Validation :=
  if capacity > 0 ∧ maxWait = 0 then .error (inconsistent fieldPath reason) else .ok ()

/-! ## The server -/

structure ServerRequestConfig where
  timeout : Nat
  maxConcurrentRequests : Nat
  maxRequestBodyBytes : Nat
  maxResponseBodyBytes : Nat
  maxInflightRequestBodyBytes : Nat
  maxInflightResponseBodyBytes : Nat
  queueCapacity : Nat
  queueMaxWait : Nat

def validateRequest (config : ServerRequestConfig) : Validation := do
  positiveDuration config.timeout "server.request.timeout"
  positiveUsize config.maxConcurrentRequests "server.request.max_concurrent_requests"
  positiveUsize config.maxRequestBodyBytes "server.request.max_request_body_bytes"
  positiveUsize config.maxResponseBodyBytes "server.request.max_response_body_bytes"
  atLeast config.maxInflightRequestBodyBytes config.maxRequestBodyBytes
    "server.request.max_inflight_request_body_bytes" "must be at least max_request_body_bytes"
  atLeast config.maxInflightResponseBodyBytes config.maxResponseBodyBytes
    "server.request.max_inflight_response_body_bytes" "must be at least max_response_body_bytes"
  queueWaits config.queueCapacity config.queueMaxWait "server.request.queue_max_wait"
    "must be positive when queue_capacity is non-zero"

/-! ## The client -/

structure QueueConfig where
  capacity : Nat
  maxWait : Nat

structure ClientAdmissionConfig where
  maxInFlight : Nat
  maxInFlightPerEndpoint : Nat
  maxRequestBodyBytes : Nat
  maxResponseBodyBytes : Nat
  maxInflightRequestBodyBytes : Nat
  maxInflightResponseBodyBytes : Nat
  queue : QueueConfig

def validateQueue (config : QueueConfig) : Validation :=
  queueWaits config.capacity config.maxWait "client.admission.queue.max_wait"
    "must be positive when queue capacity is non-zero"

def validateAdmission (config : ClientAdmissionConfig) : Validation := do
  positiveUsize config.maxInFlight "client.admission.max_in_flight"
  positiveUsize config.maxInFlightPerEndpoint "client.admission.max_in_flight_per_endpoint"
  positiveUsize config.maxRequestBodyBytes "client.admission.max_request_body_bytes"
  positiveUsize config.maxResponseBodyBytes "client.admission.max_response_body_bytes"
  atLeast config.maxInflightRequestBodyBytes config.maxRequestBodyBytes
    "client.admission.max_inflight_request_body_bytes" "must be at least max_request_body_bytes"
  atLeast config.maxInflightResponseBodyBytes config.maxResponseBodyBytes
    "client.admission.max_inflight_response_body_bytes" "must be at least max_response_body_bytes"
  validateQueue config.queue

/-! ## What an accepted configuration promises -/

theorem andThen_eq_ok {v : Validation} {f : Unit → Validation} :
    v >>= f = .ok () ↔ v = .ok () ∧ f () = .ok () := by
  rw [Lib.Except.bind_eq_ok_iff]
  exact ⟨fun ⟨_, hv, hf⟩ => ⟨hv, hf⟩, fun ⟨hv, hf⟩ => ⟨(), hv, hf⟩⟩

theorem atLeast_eq_ok {value least : Nat} {fieldPath reason : String} :
    atLeast value least fieldPath reason = .ok () ↔ least ≤ value := by
  unfold atLeast
  by_cases h : value < least
  · rw [if_pos h]
    exact ⟨nofun, fun hle => absurd h (Nat.not_lt.mpr hle)⟩
  · rw [if_neg h]
    exact ⟨fun _ => Nat.le_of_not_lt h, fun _ => rfl⟩

theorem fits_of_validateRequest {config : ServerRequestConfig}
    (h : validateRequest config = .ok ()) :
    config.maxRequestBodyBytes ≤ config.maxInflightRequestBodyBytes ∧
      config.maxResponseBodyBytes ≤ config.maxInflightResponseBodyBytes := by
  unfold validateRequest at h
  simp only [andThen_eq_ok, atLeast_eq_ok] at h
  exact ⟨h.2.2.2.2.1, h.2.2.2.2.2.1⟩

theorem fits_of_validateAdmission {config : ClientAdmissionConfig}
    (h : validateAdmission config = .ok ()) :
    config.maxRequestBodyBytes ≤ config.maxInflightRequestBodyBytes ∧
      config.maxResponseBodyBytes ≤ config.maxInflightResponseBodyBytes := by
  unfold validateAdmission at h
  simp only [andThen_eq_ok, atLeast_eq_ok] at h
  exact ⟨h.2.2.2.2.1, h.2.2.2.2.2.1⟩

end Fusen.Runtime
