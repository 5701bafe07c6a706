import Fusen.Lib.Word

/-!
# The asynchronous primitives of the runtime

`Semaphore` and `Notify` by their documented behaviour, as far as the runtime
uses them.  A semaphore counts free permits and can be closed; permits handed
out before it was closed stay valid.  A `Notified` future remembers how often
`notify_waiters` had been called when it was created and completes once the
number has changed.  A `watch` channel keeps the latest value and counts the
times it was sent.
-/

namespace Fusen.Runtime

open Lib

/-- `Semaphore::MAX_PERMITS`: `usize::MAX >> 3`. -/
def MAX_PERMITS : Nat := (Usize.size - 1) / 8

/-- A number of permits `Semaphore::new` accepts; it panics on any other. -/
structure PermitCount where
  count : Nat
  le_max : count ≤ MAX_PERMITS

structure Semaphore where
  available : Nat
  closed : Bool

namespace Semaphore

def new (limit : PermitCount) : Semaphore := ⟨limit.count, false⟩

/-- `try_acquire_owned`, and a poll of `acquire_owned` that need not wait. -/
def tryAcquire (s : Semaphore) : Option Semaphore :=
  if s.closed = false ∧ 0 < s.available then some { s with available := s.available - 1 } else none

/-- The drop of a permit. -/
def release (s : Semaphore) : Semaphore := { s with available := s.available + 1 }

def close (s : Semaphore) : Semaphore := { s with closed := true }

theorem tryAcquire_eq_some_iff {s s' : Semaphore} :
    s.tryAcquire = some s' ↔
      s.closed = false ∧ 0 < s.available ∧ s' = { s with available := s.available - 1 } := by
  unfold tryAcquire
  split
  · rename_i h
    simp [h, eq_comm]
  · rename_i h
    simp only [reduceCtorEq, false_iff]
    rintro ⟨hc, ha, -⟩
    exact h ⟨hc, ha⟩

theorem available_of_tryAcquire {s s' : Semaphore} (h : s.tryAcquire = some s') :
    s'.available + 1 = s.available := by
  obtain ⟨-, hpos, rfl⟩ := (tryAcquire_eq_some_iff).mp h
  show s.available - 1 + 1 = s.available
  omega

@[simp] theorem available_new (limit : PermitCount) : (new limit).available = limit.count := rfl

@[simp] theorem available_release (s : Semaphore) : s.release.available = s.available + 1 := rfl

@[simp] theorem available_close (s : Semaphore) : s.close.available = s.available := rfl

end Semaphore

/-- A `Notify`: the calls of `notify_waiters` so far. -/
structure Notify where
  calls : Nat

/-- A `Notified` future: the calls there were when it was created. -/
structure Notified where
  calls : Nat
  deriving DecidableEq

namespace Notify

def new : Notify := ⟨0⟩

def notified (n : Notify) : Notified := ⟨n.calls⟩

def notifyWaiters (n : Notify) : Notify := ⟨n.calls + 1⟩

/-- The future has been woken: some `notify_waiters` came after its creation. -/
def delivered (n : Notify) (f : Notified) : Bool := f.calls != n.calls

@[simp] theorem calls_notifyWaiters (n : Notify) : n.notifyWaiters.calls = n.calls + 1 := rfl

theorem delivered_eq_false_iff {n : Notify} {f : Notified} :
    n.delivered f = false ↔ f.calls = n.calls := by
  simp [delivered]

end Notify

/-- A `watch` channel: the value, and how often one was sent. -/
structure Watch (α : Type) where
  value : α
  version : Nat
  deriving DecidableEq

namespace Watch

variable {α : Type}

def channel (value : α) : Watch α := ⟨value, 0⟩

def sendReplace (w : Watch α) (value : α) : Watch α := ⟨value, w.version + 1⟩

/-- `changed` completes for a receiver that has seen the version `seen`. -/
def changed (w : Watch α) (seen : Nat) : Bool := seen != w.version

@[simp] theorem value_channel (value : α) : (channel value).value = value := rfl

@[simp] theorem version_channel (value : α) : (channel value).version = 0 := rfl

@[simp] theorem value_sendReplace (w : Watch α) (value : α) : (w.sendReplace value).value = value :=
  rfl

@[simp] theorem version_sendReplace (w : Watch α) (value : α) :
    (w.sendReplace value).version = w.version + 1 := rfl

end Watch

end Fusen.Runtime
