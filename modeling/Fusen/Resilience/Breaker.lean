import Mathlib.Data.Rat.Floor
import Mathlib.Data.Int.Log

/-!
# Circuit breaker (`resilience/breaker.rs`)

The state machine behind the mutex of `CircuitBreaker`: `tryAcquire` and
`complete` are the two critical sections, each a function of the clock reading
taken before the lock, of the locked `BreakerInner` and of its arguments.  They
return the phase handed to the transition observer along with the result.

Clock readings and durations are nanoseconds.  The `u32` counters saturate at
`u32Max`, the `u64` epoch wraps.  The failure ratio is the rational value of
the configured `f64`; `f64Div` rounds a quotient the way the division does.
-/

namespace Fusen

def u32Max : Nat := 2 ^ 32 - 1
def u64Size : Nat := 2 ^ 64

namespace Duration

def ofSecs (n : Nat) : Nat := n * 1000000000

/-- `Duration::MAX`: `u64::MAX` seconds and 999 999 999 nanoseconds. -/
def max : Nat := ofSecs (u64Size - 1) + 999999999

def checkedMul (d n : Nat) : Option Nat :=
  if d * n ≤ max then some (d * n) else none

end Duration

namespace Resilience

/-! ## Failure classes -/

inductive FailureClass
  | connect | transport | timeout | unavailable | overloaded | remoteServer
  | remoteFailure | protocol | application | invalidRequest | cancelled | localRejection
deriving DecidableEq, Repr

inductive BreakerImpact
  | success | failure | ignore | unattempted
deriving DecidableEq, Repr

def FailureClass.isRetryable : FailureClass → Bool
  | connect | transport | timeout | unavailable | overloaded | remoteServer => true
  | remoteFailure | protocol | application | invalidRequest | cancelled | localRejection => false

def FailureClass.breakerImpact : FailureClass → BreakerImpact
  | connect | transport | timeout | unavailable | remoteServer | remoteFailure | protocol => .failure
  | application => .success
  | overloaded | invalidRequest | cancelled | localRejection => .ignore

/-! ## Configuration -/

def hardMaxOpenDuration : Nat := Duration.ofSecs 120

/-- The fields are kept with what config validation checked of them. -/
structure BreakerConfig where
  window : Nat
  buckets : Nat
  minimumSamples : Nat
  failureRatio : ℚ
  openDuration : Nat
  maxOpenDuration : Nat
  halfOpenConcurrency : Nat
  closeSuccesses : Nat
  window_pos : 0 < window
  buckets_pos : 0 < buckets
  buckets_le : buckets ≤ 255
  minimumSamples_pos : 0 < minimumSamples
  failureRatio_mem : 0 ≤ failureRatio ∧ failureRatio ≤ 1
  openDuration_pos : 0 < openDuration
  maxOpenDuration_pos : 0 < maxOpenDuration
  maxOpenDuration_le : maxOpenDuration ≤ hardMaxOpenDuration
  halfOpenConcurrency_pos : 0 < halfOpenConcurrency
  halfOpenConcurrency_le : halfOpenConcurrency ≤ u32Max
  closeSuccesses_pos : 0 < closeSuccesses
  closeSuccesses_le : closeSuccesses ≤ u32Max

/-- `BreakerConfig::new` on thresholds that passed `validate_threshold`. -/
def BreakerConfig.new (window : Nat) (buckets minimumSamples : Nat) (failureRatio : ℚ)
    (openDuration maxOpenDuration : Nat) (halfOpenConcurrency closeSuccesses : Nat)
    (hw : 0 < window) (hb : 0 < buckets ∧ buckets ≤ 255) (hm : 0 < minimumSamples)
    (hr : 0 ≤ failureRatio ∧ failureRatio ≤ 1) (ho : 0 < openDuration) (hx : 0 < maxOpenDuration)
    (hh : 0 < halfOpenConcurrency ∧ halfOpenConcurrency ≤ u32Max)
    (hc : 0 < closeSuccesses ∧ closeSuccesses ≤ u32Max) : BreakerConfig where
  window := window
  buckets := buckets
  minimumSamples := minimumSamples
  failureRatio := failureRatio
  openDuration := openDuration
  maxOpenDuration := min maxOpenDuration hardMaxOpenDuration
  halfOpenConcurrency := halfOpenConcurrency
  closeSuccesses := closeSuccesses
  window_pos := hw
  buckets_pos := hb.1
  buckets_le := hb.2
  minimumSamples_pos := hm
  failureRatio_mem := hr
  openDuration_pos := ho
  maxOpenDuration_pos := by simp [hx, hardMaxOpenDuration, Duration.ofSecs]
  maxOpenDuration_le := by simp
  halfOpenConcurrency_pos := hh.1
  halfOpenConcurrency_le := hh.2
  closeSuccesses_pos := hc.1
  closeSuccesses_le := hc.2

def BreakerConfig.initialOpenDuration (c : BreakerConfig) : Nat :=
  min c.openDuration c.maxOpenDuration

def BreakerConfig.nextOpenDuration (c : BreakerConfig) (previous : Nat) : Nat :=
  min ((Duration.checkedMul previous 2).getD c.maxOpenDuration) c.maxOpenDuration

theorem BreakerConfig.nextOpenDuration_eq (c : BreakerConfig) (previous : Nat) :
    c.nextOpenDuration previous = min (2 * previous) c.maxOpenDuration := by
  have hle := c.maxOpenDuration_le
  have hmax : hardMaxOpenDuration ≤ Duration.max := by decide
  unfold nextOpenDuration Duration.checkedMul
  split
  · rw [Option.getD_some, Nat.mul_comm]
  · -- an overflowing product is above every configurable maximum
    rw [Option.getD_none]
    omega

/-! ## The rolling window -/

structure Bucket where
  successes : Nat
  failures : Nat
deriving DecidableEq, Repr

def Bucket.default : Bucket := ⟨0, 0⟩

structure RollingWindow where
  buckets : List Bucket
  current : Nat
  currentStart : Nat
  bucketWidth : Nat
  current_lt : current < buckets.length
  bucketWidth_pos : 0 < bucketWidth

structure WindowCounts where
  successes : Nat
  failures : Nat
deriving DecidableEq, Repr

def WindowCounts.samples (c : WindowCounts) : Nat := c.successes + c.failures

namespace RollingWindow

def new (config : BreakerConfig) (now : Nat) : RollingWindow where
  buckets := List.replicate config.buckets Bucket.default
  current := 0
  currentStart := now
  bucketWidth := max (config.window / config.buckets) 1
  current_lt := by simpa using config.buckets_pos
  bucketWidth_pos := by omega

/-- One turn of the loop in `advance`: the next bucket is emptied and becomes current. -/
def rotate (w : RollingWindow) : RollingWindow where
  buckets := w.buckets.set ((w.current + 1) % w.buckets.length) Bucket.default
  current := (w.current + 1) % w.buckets.length
  currentStart := w.currentStart + w.bucketWidth
  bucketWidth := w.bucketWidth
  current_lt := by
    have := w.current_lt
    rw [List.length_set]
    exact Nat.mod_lt _ (by omega)
  bucketWidth_pos := w.bucketWidth_pos

def reset (w : RollingWindow) (now : Nat) : RollingWindow where
  buckets := List.replicate w.buckets.length Bucket.default
  current := 0
  currentStart := now
  bucketWidth := w.bucketWidth
  current_lt := by have := w.current_lt; simp; omega
  bucketWidth_pos := w.bucketWidth_pos

def steps (w : RollingWindow) (now : Nat) : Nat := (now - w.currentStart) / w.bucketWidth

def advance (w : RollingWindow) (now : Nat) : RollingWindow :=
  if w.steps now = 0 then w
  else if w.buckets.length ≤ w.steps now then w.reset now
  else rotate^[w.steps now] w

/-- Replaces the current bucket by its image under `f`. -/
def updateCurrent (w : RollingWindow) (f : Bucket → Bucket) : RollingWindow where
  buckets := w.buckets.set w.current (f (w.buckets.get ⟨w.current, w.current_lt⟩))
  current := w.current
  currentStart := w.currentStart
  bucketWidth := w.bucketWidth
  current_lt := by simpa using w.current_lt
  bucketWidth_pos := w.bucketWidth_pos

def recordSuccess (w : RollingWindow) : RollingWindow :=
  w.updateCurrent fun b => { b with successes := min (b.successes + 1) u32Max }

def recordFailure (w : RollingWindow) : RollingWindow :=
  w.updateCurrent fun b => { b with failures := min (b.failures + 1) u32Max }

def counts (w : RollingWindow) : WindowCounts :=
  w.buckets.foldl (fun c b => ⟨c.successes + b.successes, c.failures + b.failures⟩) ⟨0, 0⟩

theorem rotate_iterate_currentStart (w : RollingWindow) (n : Nat) :
    (rotate^[n] w).currentStart = w.currentStart + n * w.bucketWidth ∧
    (rotate^[n] w).bucketWidth = w.bucketWidth := by
  induction n with
  | zero => simp
  | succ n ih =>
    rw [Function.iterate_succ_apply']
    refine ⟨?_, ih.2⟩
    show (rotate^[n] w).currentStart + (rotate^[n] w).bucketWidth = _
    rw [ih.1, ih.2, Nat.succ_mul, Nat.add_assoc]

/-- After `advance now` the current bucket is the one `now` falls in. -/
theorem steps_advance (w : RollingWindow) (now : Nat) : (w.advance now).steps now = 0 := by
  unfold advance
  split
  · assumption
  · split
    · simp [steps, reset]
    · obtain ⟨h1, h2⟩ := rotate_iterate_currentStart w (w.steps now)
      have hw := w.bucketWidth_pos
      have hlt : now - w.currentStart < w.steps now * w.bucketWidth + w.bucketWidth := by
        have hd := Nat.div_add_mod (now - w.currentStart) w.bucketWidth
        have hm := Nat.mod_lt (now - w.currentStart) hw
        rw [Nat.mul_comm] at hd
        unfold steps
        omega
      rw [steps, h1, h2]
      apply Nat.div_eq_of_lt
      omega

/-- Advancing twice to the same reading is advancing once. -/
@[simp] theorem advance_advance (w : RollingWindow) (now : Nat) :
    (w.advance now).advance now = w.advance now := by
  rw [advance.eq_def (w.advance now), if_pos (steps_advance w now)]

end RollingWindow

/-! ## The failure-ratio test -/

/-- Round to the nearest integer, ties to even. -/
def roundHalfEven (q : ℚ) : ℤ :=
  if q - ⌊q⌋ < 1 / 2 then ⌊q⌋
  else if 1 / 2 < q - ⌊q⌋ then ⌊q⌋ + 1
  else if ⌊q⌋ % 2 = 0 then ⌊q⌋ else ⌊q⌋ + 1

/-- `a as f64 / b as f64` for counts below 2⁵³: the quotient to 53 significant bits. -/
def f64Div (a b : Nat) : ℚ :=
  if a = 0 ∨ b = 0 then 0
  else
    let q : ℚ := (a : ℚ) / b
    let ulp : ℚ := (2 : ℚ) ^ (Int.log 2 q - 52)
    roundHalfEven (q / ulp) * ulp

def thresholdExceeded (c : BreakerConfig) (counts : WindowCounts) : Bool :=
  c.minimumSamples ≤ counts.samples && decide (c.failureRatio ≤ f64Div counts.failures counts.samples)

/-! ## The state machine -/

inductive MachineState
  | closed (window : RollingWindow)
  | opened (until_ : Nat) (duration : Nat)
  | halfOpen (inFlight consecutiveSuccesses : Nat) (previousOpenDuration : Nat)

structure BreakerInner where
  epoch : Nat
  state : MachineState

inductive PermitPhase
  | closed | halfOpen
deriving DecidableEq, Repr

structure PermitToken where
  epoch : Nat
  phase : PermitPhase
deriving DecidableEq, Repr

/-- `abandoned` is what dropping a permit reports. -/
inductive PermitOutcome
  | success
  | failure (class_ : FailureClass)
  | abandoned
  | unattempted
deriving DecidableEq, Repr

def PermitOutcome.impact : PermitOutcome → BreakerImpact
  | .success => .success
  | .failure f => f.breakerImpact
  | .abandoned => .ignore
  | .unattempted => .unattempted

inductive BreakerRejection
  | opened (retryAfter : Nat)
  | halfOpenSaturated
deriving DecidableEq, Repr

inductive BreakerPhase
  | closed | opened | halfOpen
deriving DecidableEq, Repr

def wrappingSucc (epoch : Nat) : Nat := (epoch + 1) % u64Size

/-- What a critical section leaves behind: the new inner state, its result and
the transition to notify. -/
structure Locked (α : Type) where
  inner : BreakerInner
  result : α
  transition : Option BreakerPhase

/-- `with_observer`: a fresh breaker is closed, in epoch 0. -/
def BreakerInner.new (config : BreakerConfig) (now : Nat) : BreakerInner :=
  ⟨0, .closed (.new config now)⟩

/-- The two `HalfOpen` arms of `try_acquire`. -/
def acquireHalfOpen (config : BreakerConfig) (epoch inFlight successes : Nat) (previous : Nat)
    (transition : Option BreakerPhase) : Locked (Except BreakerRejection PermitToken) :=
  if config.halfOpenConcurrency ≤ inFlight then
    ⟨⟨epoch, .halfOpen inFlight successes previous⟩, .error .halfOpenSaturated, transition⟩
  else
    ⟨⟨epoch, .halfOpen (inFlight + 1) successes previous⟩, .ok ⟨epoch, .halfOpen⟩, transition⟩

/-- `try_acquire`.  The loop of the source turns at most twice: an elapsed `Open`
becomes `HalfOpen`, whose arms all return. -/
def tryAcquire (config : BreakerConfig) (now : Nat) (inner : BreakerInner) :
    Locked (Except BreakerRejection PermitToken) :=
  match inner.state with
  | .closed window =>
    ⟨⟨inner.epoch, .closed (window.advance now)⟩, .ok ⟨inner.epoch, .closed⟩, none⟩
  | .opened until_ duration =>
    if until_ ≤ now then
      acquireHalfOpen config (wrappingSucc inner.epoch) 0 0 duration (some .halfOpen)
    else ⟨inner, .error (.opened (until_ - now)), none⟩
  | .halfOpen inFlight successes previous =>
    acquireHalfOpen config inner.epoch inFlight successes previous none

def enterOpen (epoch : Nat) (now : Nat) (duration : Nat) : Locked Unit :=
  ⟨⟨wrappingSucc epoch, .opened (now + duration) duration⟩, (), some .opened⟩

def completeClosed (config : BreakerConfig) (inner : BreakerInner) (now : Nat)
    (impact : BreakerImpact) : Locked Unit :=
  match inner.state with
  | .closed window =>
    let window := window.advance now
    match impact with
    | .success => ⟨⟨inner.epoch, .closed window.recordSuccess⟩, (), none⟩
    | .failure =>
      if thresholdExceeded config window.recordFailure.counts then
        enterOpen inner.epoch now config.initialOpenDuration
      else ⟨⟨inner.epoch, .closed window.recordFailure⟩, (), none⟩
    | .ignore | .unattempted => ⟨⟨inner.epoch, .closed window⟩, (), none⟩
  | .opened .. | .halfOpen .. => ⟨inner, (), none⟩

def completeHalfOpen (config : BreakerConfig) (inner : BreakerInner) (now : Nat)
    (impact : BreakerImpact) : Locked Unit :=
  match inner.state with
  | .halfOpen inFlight successes previous =>
    match impact with
    | .success =>
      let successes := min (successes + 1) u32Max
      if config.closeSuccesses ≤ successes then
        ⟨⟨wrappingSucc inner.epoch, .closed (.new config now)⟩, (), some .closed⟩
      else ⟨⟨inner.epoch, .halfOpen (inFlight - 1) successes previous⟩, (), none⟩
    | .failure => enterOpen inner.epoch now (config.nextOpenDuration previous)
    | .ignore | .unattempted =>
      ⟨⟨inner.epoch, .halfOpen (inFlight - 1) successes previous⟩, (), none⟩
  | .closed .. | .opened .. => ⟨inner, (), none⟩

def complete (config : BreakerConfig) (now : Nat) (token : PermitToken)
    (outcome : PermitOutcome) (inner : BreakerInner) : Locked Unit :=
  if token.epoch ≠ inner.epoch then ⟨inner, (), none⟩
  else match token.phase with
    | .closed => completeClosed config inner now outcome.impact
    | .halfOpen => completeHalfOpen config inner now outcome.impact

/-! ## The observer's view -/

structure BreakerSnapshot where
  state : BreakerPhase
  samples : Nat
  failures : Nat
  retryAfter : Option Nat
deriving DecidableEq, Repr

/-- `snapshot`; the locked window is left advanced, which only the clock can tell. -/
def snapshot (now : Nat) (inner : BreakerInner) : BreakerSnapshot :=
  match inner.state with
  | .closed window =>
    let counts := (window.advance now).counts
    ⟨.closed, counts.samples, counts.failures, none⟩
  | .opened until_ _ => ⟨.opened, 0, 0, some (until_ - now)⟩
  | .halfOpen .. => ⟨.halfOpen, 0, 0, none⟩

end Resilience

end Fusen
