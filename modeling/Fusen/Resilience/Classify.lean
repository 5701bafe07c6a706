import Fusen.Error
import Fusen.Resilience.Breaker

/-!
# Failure classes of errors (`resilience/classify.rs`)
-/

namespace Fusen.Resilience

def isRetryableStatus (status : StatusCode) : Bool :=
  match status.code with
  | 408 | 425 | 429 | 500 | 502 | 503 | 504 => true
  | _ => false

/-- The branch of local framework errors. -/
def classifyLocal (error : Error) : FailureClass :=
  if error.retryHint.isRetryable then .transport
  else
    match error.category with
    | .deadlineExceeded => .timeout
    | .cancelled => .cancelled
    | .dataLoss => .protocol
    | .payloadTooLarge | .resourceExhausted | .unavailable => .localRejection
    | _ => .invalidRequest

/-- The branch of remote framework errors other than protocol errors. -/
def classifyRemote (error : Error) : FailureClass :=
  if isRetryableStatus error.status then
    if error.retryHint.isRetryable = false then .remoteFailure
    else
      match error.status.code with
      | 408 => .timeout
      | 429 => .overloaded
      | 502 | 503 | 504 => .unavailable
      | _ => .remoteServer
  else if error.status.isServerError then .remoteFailure
  else .invalidRequest

def classifyError (error : Error) : FailureClass :=
  match error.kind, error.origin with
  | .application, .local_ => .invalidRequest
  | .application, .remote => if error.status.isServerError then .remoteFailure else .application
  | .framework, .local_ => classifyLocal error
  | .framework, .remote =>
    if error.category = .dataLoss then .protocol else classifyRemote error

/-- **Application errors are never retried.** -/
theorem isRetryable_application {error : Error} (h : error.kind = .application) :
    (classifyError error).isRetryable = false := by
  unfold classifyError
  rw [h]
  cases error.origin with
  | local_ => rfl
  | remote =>
    show (if error.status.isServerError = true then _ else _ : FailureClass).isRetryable = false
    split <;> rfl

/-- A remote error is retried only on a retryable status with a retryable hint. -/
theorem isRetryable_remote_iff {error : Error} (hkind : error.kind = .framework)
    (horigin : error.origin = .remote) :
    (classifyError error).isRetryable = true ↔
      error.category ≠ .dataLoss ∧ isRetryableStatus error.status = true ∧
        error.retryHint.isRetryable = true := by
  unfold classifyError
  simp only [hkind, horigin]
  by_cases hloss : error.category = .dataLoss
  · simp [hloss, FailureClass.isRetryable]
  rw [if_neg hloss]
  unfold classifyRemote
  by_cases hstatus : isRetryableStatus error.status = true
  · rw [if_pos hstatus]
    by_cases hhint : error.retryHint.isRetryable = true
    · rw [if_neg (by simp [hhint])]
      simp only [hloss, hstatus, hhint, ne_eq, not_false_eq_true, and_self, iff_true]
      split <;> rfl
    · rw [if_pos (by simpa using hhint)]
      simp [hhint, FailureClass.isRetryable]
  · rw [if_neg hstatus]
    simp only [hstatus, Bool.false_eq_true, false_and, and_false, iff_false]
    split <;> simp [FailureClass.isRetryable]

end Fusen.Resilience
