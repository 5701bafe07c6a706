import Mathlib.Tactic.Common
import Fusen.Lib.Threads
import Fusen.Runtime.Sync

/-!
# The admission gate

`AdmissionGate` limits the calls in flight and lets a runtime drain.  Every
call of its methods is a thread, and a thread moves by one access to the state,
the semaphore, the active count or the notifier at a time, so the runs of
`gate` are all interleavings of the atomic steps.

The accounting of permits and of the active count is `Inv`; `gate_safe` puts
the safety of the gate together.
-/

namespace Fusen.Runtime

open Lib

/-- The values of the state byte: `RUNNING`, `DRAINING` and `CLOSED`. -/
inductive GateState where
  | running
  | draining
  | closed
  deriving DecidableEq, Repr

inductive AdmissionError where
  | overloaded
  | draining
  deriving DecidableEq, Repr

structure AdmissionGate where
  state : GateState
  permits : Semaphore
  active : Nat
  changed : Notify

namespace AdmissionGate

def new (limit : PermitCount) : AdmissionGate where
  state := .running
  permits := .new limit
  active := 0
  changed := .new

/-! ## The calls and their atomic steps -/

/-- What a call starts with. -/
inductive Kind where
  | tryEnter
  | enter
  | beginDraining
  | close
  | drained

/-- How a call has ended. -/
inductive Outcome where
  | error (e : AdmissionError)
  | dropped
  | cancelled
  | changed (b : Bool)
  | closed
  | drained
  deriving DecidableEq, Repr

/-- Why `release_one` is called: the second check refused, or the guard is dropped. -/
inductive Release where
  | refused
  | dropped
  deriving DecidableEq, Repr

def Release.outcome : Release → Outcome
  | .refused => .error .draining
  | .dropped => .dropped

/-- Who closes the semaphore and notifies. -/
inductive Closing where
  | beginDraining
  | close
  deriving DecidableEq, Repr

def Closing.outcome : Closing → Outcome
  | .beginDraining => .changed true
  | .close => .closed

/-- Where a call stands: the name says what it does next. -/
inductive Call where
  /-- `try_enter`, before the first load of the state. -/
  | tryEnter
  | tryAcquire
  /-- `try_enter` got no permit and loads the state to name its error. -/
  | nameError
  /-- `enter`, before the first load of the state. -/
  | enter
  /-- `acquire_owned`, perhaps queued. -/
  | acquire
  /-- `acquire_owned` was handed a permit in the queue and is not yet polled. -/
  | assigned
  /-- The permit is held; `fetch_add` comes next. -/
  | count
  /-- The second load of the state comes next. -/
  | recheck
  /-- The second load saw `RUNNING`; the guard is about to be returned. -/
  | admitted
  | guard
  /-- The second load saw another state; `release_one` comes next. -/
  | refused
  /-- `release_one` found itself the last and calls `notify_waiters` next. -/
  | releaseNotify (r : Release)
  | dropPermit (r : Release)
  /-- `begin_draining`, before the exchange. -/
  | beginDraining
  /-- `close`, before the store. -/
  | close
  | closePermits (c : Closing)
  | closeNotify (c : Closing)
  /-- `drained`, at the head of its loop. -/
  | drained
  | loadActive (f : Notified)
  /-- `drained` awaits its `Notified` future. -/
  | parked (f : Notified)
  | finished (out : Outcome)
  deriving DecidableEq

/-- `run` is the call's own next step, `assign` hands a queued call a permit and
`cancel` drops a future where it awaits. -/
inductive Action where
  | run
  | assign
  | cancel

def start : Kind → Call
  | .tryEnter => .tryEnter
  | .enter => .enter
  | .beginDraining => .beginDraining
  | .close => .close
  | .drained => .drained

/-- `release_one`, up to its `notify_waiters`. -/
def releaseOne (g : AdmissionGate) (r : Release) : AdmissionGate × Call :=
  ({ g with active := Usize.wrappingSub g.active 1 },
    if g.active = 1 then .releaseNotify r else .dropPermit r)

/-- The atomic steps.  A queued `enter` may be handed any free permit, so
nothing is assumed about the order in which the semaphore serves its queue. -/
def next (g : AdmissionGate) : Call → Action → Option (AdmissionGate × Call)
  | .tryEnter, .run =>
    if g.state = .running then some (g, .tryAcquire) else some (g, .finished (.error .draining))
  | .tryAcquire, .run =>
    match g.permits.tryAcquire with
    | some permits => some ({ g with permits }, .count)
    | none => some (g, .nameError)
  | .nameError, .run =>
    if g.state = .running then some (g, .finished (.error .overloaded))
    else some (g, .finished (.error .draining))
  | .enter, .run =>
    if g.state = .running then some (g, .acquire) else some (g, .finished (.error .draining))
  | .enter, .cancel => some (g, .finished .cancelled)
  | .acquire, .run =>
    if g.permits.closed then some (g, .finished (.error .draining))
    else
      match g.permits.tryAcquire with
      | some permits => some ({ g with permits }, .count)
      | none => none
  | .acquire, .assign =>
    match g.permits.tryAcquire with
    | some permits => some ({ g with permits }, .assigned)
    | none => none
  | .acquire, .cancel => some (g, .finished .cancelled)
  | .assigned, .run =>
    if g.permits.closed then
      some ({ g with permits := g.permits.release }, .finished (.error .draining))
    else some (g, .count)
  | .assigned, .cancel => some ({ g with permits := g.permits.release }, .finished .cancelled)
  | .count, .run => some ({ g with active := Usize.wrappingAdd g.active 1 }, .recheck)
  | .recheck, .run => if g.state = .running then some (g, .admitted) else some (g, .refused)
  | .admitted, .run => some (g, .guard)
  | .guard, .run => some (g.releaseOne .dropped)
  | .refused, .run => some (g.releaseOne .refused)
  | .releaseNotify r, .run => some ({ g with changed := g.changed.notifyWaiters }, .dropPermit r)
  | .dropPermit r, .run => some ({ g with permits := g.permits.release }, .finished r.outcome)
  | .beginDraining, .run =>
    if g.state = .running then some ({ g with state := .draining }, .closePermits .beginDraining)
    else some (g, .finished (.changed false))
  | .close, .run => some ({ g with state := .closed }, .closePermits .close)
  | .closePermits c, .run => some ({ g with permits := g.permits.close }, .closeNotify c)
  | .closeNotify c, .run =>
    some ({ g with changed := g.changed.notifyWaiters }, .finished c.outcome)
  | .drained, .run => some (g, .loadActive g.changed.notified)
  | .drained, .cancel => some (g, .finished .cancelled)
  | .loadActive f, .run => if g.active = 0 then some (g, .finished .drained) else some (g, .parked f)
  | .parked f, .run => if g.changed.delivered f then some (g, .drained) else none
  | .parked _, .cancel => some (g, .finished .cancelled)
  | _, _ => none

/-! ## What a call holds -/

namespace Call

/-- The call holds a permit. -/
def holds : Call → Nat
  | .assigned | .count | .recheck | .admitted | .guard | .refused | .releaseNotify _
  | .dropPermit _ => 1
  | _ => 0

/-- The call has returned a guard that is still alive. -/
def live : Call → Nat
  | .guard => 1
  | _ => 0

/-- The call has incremented the active count and is neither granted nor released. -/
def pending : Call → Nat
  | .recheck | .admitted | .refused => 1
  | _ => 0

/-- The call has passed its second check of the state. -/
def passed : Call → Bool
  | .admitted | .guard => true
  | _ => false

/-- The next step of the call is a `notify_waiters`, perhaps after the close of
the semaphore. -/
def notifies : Call → Bool
  | .releaseNotify _ | .closePermits _ | .closeNotify _ => true
  | _ => false

/-- The call has taken the gate out of `RUNNING`, or found it so. -/
def leaves : Call → Bool
  | .closePermits _ | .closeNotify _ | .finished (.changed _) | .finished .closed => true
  | _ => false

/-- The `Notified` future of a `drained` call that has one. -/
def ticket : Call → Option Notified
  | .loadActive f | .parked f => some f
  | _ => none

theorem live_add_pending_le (t : Call) : t.live + t.pending ≤ t.holds := by
  cases t <;> simp [live, pending, holds]

end Call

/-! ## One atomic step -/

section Step

variable {g g' : AdmissionGate} {t t' : Call} {e : Action}

/-- What a call can do, by where it stands. -/
inductive Step (g : AdmissionGate) : Call → Action → AdmissionGate → Call → Prop
  | tryEnter (h : g.state = .running) : Step g .tryEnter .run g .tryAcquire
  | tryEnterDraining (h : g.state ≠ .running) :
    Step g .tryEnter .run g (.finished (.error .draining))
  | tryAcquire {permits : Semaphore} (h : g.permits.tryAcquire = some permits) :
    Step g .tryAcquire .run { g with permits } .count
  | tryAcquireFull (h : g.permits.tryAcquire = none) : Step g .tryAcquire .run g .nameError
  | nameOverloaded (h : g.state = .running) :
    Step g .nameError .run g (.finished (.error .overloaded))
  | nameDraining (h : g.state ≠ .running) : Step g .nameError .run g (.finished (.error .draining))
  | enter (h : g.state = .running) : Step g .enter .run g .acquire
  | enterDraining (h : g.state ≠ .running) : Step g .enter .run g (.finished (.error .draining))
  | enterCancel : Step g .enter .cancel g (.finished .cancelled)
  | acquireClosed (h : g.permits.closed = true) :
    Step g .acquire .run g (.finished (.error .draining))
  | acquire {permits : Semaphore} (h : g.permits.tryAcquire = some permits) :
    Step g .acquire .run { g with permits } .count
  | assign {permits : Semaphore} (h : g.permits.tryAcquire = some permits) :
    Step g .acquire .assign { g with permits } .assigned
  | acquireCancel : Step g .acquire .cancel g (.finished .cancelled)
  | assignedClosed (h : g.permits.closed = true) :
    Step g .assigned .run { g with permits := g.permits.release } (.finished (.error .draining))
  | assigned (h : g.permits.closed ≠ true) : Step g .assigned .run g .count
  | assignedCancel :
    Step g .assigned .cancel { g with permits := g.permits.release } (.finished .cancelled)
  | count : Step g .count .run { g with active := Usize.wrappingAdd g.active 1 } .recheck
  | recheck (h : g.state = .running) : Step g .recheck .run g .admitted
  | recheckRefused (h : g.state ≠ .running) : Step g .recheck .run g .refused
  | admitted : Step g .admitted .run g .guard
  /-- `release_one` of the last active call. -/
  | releaseLast {t : Call} {r : Release} (ht : t = .guard ∨ t = .refused) (h : g.active = 1) :
    Step g t .run { g with active := Usize.wrappingSub g.active 1 } (.releaseNotify r)
  | releaseOther {t : Call} {r : Release} (ht : t = .guard ∨ t = .refused) (h : g.active ≠ 1) :
    Step g t .run { g with active := Usize.wrappingSub g.active 1 } (.dropPermit r)
  | releaseNotify {r : Release} :
    Step g (.releaseNotify r) .run { g with changed := g.changed.notifyWaiters } (.dropPermit r)
  | dropPermit {r : Release} :
    Step g (.dropPermit r) .run { g with permits := g.permits.release } (.finished r.outcome)
  | beginDraining (h : g.state = .running) :
    Step g .beginDraining .run { g with state := .draining } (.closePermits .beginDraining)
  | beginDrainingLate (h : g.state ≠ .running) :
    Step g .beginDraining .run g (.finished (.changed false))
  | close : Step g .close .run { g with state := .closed } (.closePermits .close)
  | closePermits {c : Closing} :
    Step g (.closePermits c) .run { g with permits := g.permits.close } (.closeNotify c)
  | closeNotify {c : Closing} :
    Step g (.closeNotify c) .run { g with changed := g.changed.notifyWaiters } (.finished c.outcome)
  | drained : Step g .drained .run g (.loadActive g.changed.notified)
  | drainedCancel : Step g .drained .cancel g (.finished .cancelled)
  | loadActiveNone {f : Notified} (h : g.active = 0) :
    Step g (.loadActive f) .run g (.finished .drained)
  | loadActive {f : Notified} (h : g.active ≠ 0) : Step g (.loadActive f) .run g (.parked f)
  | parked {f : Notified} (h : g.changed.delivered f = true) : Step g (.parked f) .run g .drained
  | parkedCancel {f : Notified} : Step g (.parked f) .cancel g (.finished .cancelled)

/-- `release_one` goes to the notification if it was the last, else past it. -/
theorem step_releaseOne {r : Release} (ht : t = .guard ∨ t = .refused)
    (h : some (g.releaseOne r) = some (g', t')) : Step g t .run g' t' := by
  simp only [releaseOne, Option.some.injEq, Prod.mk.injEq] at h
  obtain ⟨rfl, rfl⟩ := h
  by_cases hone : g.active = 1
  · rw [if_pos hone]
    exact .releaseLast ht hone
  · rw [if_neg hone]
    exact .releaseOther ht hone

/-- **Every step is one of these.** -/
theorem step_of_next (h : next g t e = some (g', t')) : Step g t e g' t' := by
  revert h
  fun_cases next g t e <;> intro h
  all_goals first
    | exact step_releaseOne (.inl rfl) h
    | exact step_releaseOne (.inr rfl) h
    | cases h; constructor <;> assumption
    | cases h

/-- A step only moves permits between the semaphore and the call. -/
theorem available_of_next (h : next g t e = some (g', t')) :
    g'.permits.available + t'.holds = g.permits.available + t.holds := by
  cases step_of_next h with
  | tryAcquire hfree => exact Semaphore.available_of_tryAcquire hfree
  | acquire hfree => exact Semaphore.available_of_tryAcquire hfree
  | assign hfree => exact Semaphore.available_of_tryAcquire hfree
  | releaseLast ht => rcases ht with rfl | rfl <;> rfl
  | releaseOther ht => rcases ht with rfl | rfl <;> rfl
  | _ => rfl

/-- The active count follows the guards and the entries under way, as long as
the word does not wrap. -/
theorem active_of_next (h : next g t e = some (g', t')) (hle : t.live + t.pending ≤ g.active)
    (hlt : g.active + 1 < Usize.size) :
    g'.active + (t.live + t.pending) = g.active + (t'.live + t'.pending) := by
  have hadd := Usize.wrappingAdd_of_lt hlt
  cases step_of_next h with
  | count => simp only [Call.live, Call.pending, hadd]
  | releaseLast ht | releaseOther ht =>
    -- a guard, or an entry that was refused, is what the count loses
    have hone : t.live + t.pending = 1 := by rcases ht with rfl | rfl <;> rfl
    rw [hone] at hle
    simp only [Call.live, Call.pending] at hone ⊢
    rw [Usize.wrappingSub_of_le (by omega) hle]
    omega
  | _ => rfl

/-- The state never returns to `RUNNING`. -/
theorem state_of_next (h : next g t e = some (g', t')) (hs : g.state ≠ .running) :
    g'.state ≠ .running := by
  cases step_of_next h with
  | beginDraining => exact nofun
  | close => exact nofun
  | _ => exact hs

/-- A call passes its second check only while the state is `RUNNING`. -/
theorem passed_of_next (h : next g t e = some (g', t')) (hp : t'.passed = true) :
    t.passed = true ∨ t = .recheck ∧ g.state = .running := by
  cases step_of_next h with
  | recheck hrun => exact .inr ⟨rfl, hrun⟩
  | admitted => exact .inl rfl
  | _ => cases hp

/-- The notifier counts up, or a call about to notify still is. -/
theorem changed_of_next (h : next g t e = some (g', t')) :
    g'.changed = g.changed.notifyWaiters ∨
      g'.changed = g.changed ∧ (t.notifies = true → t'.notifies = true) := by
  cases step_of_next h with
  | releaseNotify => exact .inl rfl
  | closeNotify => exact .inl rfl
  | closePermits => exact .inr ⟨rfl, fun _ => rfl⟩
  | releaseLast => exact .inr ⟨rfl, fun _ => rfl⟩
  | releaseOther ht => exact .inr ⟨rfl, by rcases ht with rfl | rfl <;> exact nofun⟩
  | _ => exact .inr ⟨rfl, nofun⟩

/-- The step that takes the active count to zero goes on to notify. -/
theorem notifies_of_next (h : next g t e = some (g', t')) (hpos : 0 < g.active)
    (hlt : g.active + 1 < Usize.size) (hz : g'.active = 0) : t'.notifies = true := by
  cases step_of_next h with
  | count => exact absurd ((Usize.wrappingAdd_of_lt hlt).symm.trans hz) (Nat.succ_ne_zero _)
  | releaseLast => rfl
  | releaseOther _ hne =>
    have : g.active - 1 = 0 := (Usize.wrappingSub_of_le (by omega) hpos).symm.trans hz
    omega
  | _ => exact absurd hz (Nat.ne_of_gt hpos)

/-- A future is created from the notifier and kept; a call parks on it only
after it has seen the active count above zero. -/
theorem ticket_of_next (h : next g t e = some (g', t')) {f : Notified}
    (hf : t'.ticket = some f) :
    g' = g ∧ (f = g.changed.notified ∧ t' = .loadActive f ∨
      t = .loadActive f ∧ t' = .parked f ∧ 0 < g.active) := by
  cases step_of_next h with
  | drained =>
    cases hf
    exact ⟨rfl, .inl ⟨rfl, rfl⟩⟩
  | loadActive hne =>
    cases hf
    exact ⟨rfl, .inr ⟨rfl, rfl, Nat.pos_of_ne_zero hne⟩⟩
  | _ => cases hf

end Step

/-! ## The accounts of the gate -/

end AdmissionGate

open AdmissionGate in
/-- The gate and all calls on it. -/
def gate (limit : PermitCount) : Threads AdmissionGate Call Kind Action where
  shared := .new limit
  start := start
  next := next

namespace AdmissionGate

variable {limit : PermitCount}

/-- What every interleaving keeps: the permits add up to the limit, the active
count to the guards and the entries under way, and a future that nobody has
woken yet waits for a guard or for a notification under way. -/
structure Inv (limit : PermitCount) (p : Pool AdmissionGate Call) : Prop where
  permits : p.shared.permits.available + total Call.holds p.threads = limit.count
  active : p.shared.active = total Call.live p.threads + total Call.pending p.threads
  ticket : ∀ t ∈ p.threads, ∀ f, t.ticket = some f → f.calls ≤ p.shared.changed.calls
  parked : ∀ f, Call.parked f ∈ p.threads → p.shared.changed.delivered f = false →
    0 < p.shared.active ∨ ∃ t ∈ p.threads, t.notifies = true

theorem MAX_PERMITS_lt : MAX_PERMITS + 1 < Usize.size := by
  unfold MAX_PERMITS Usize.size
  decide

namespace Inv

variable {p : Pool AdmissionGate Call}

theorem total_add_le (p : Pool AdmissionGate Call) :
    total Call.live p.threads + total Call.pending p.threads ≤ total Call.holds p.threads := by
  have h : total (fun t => Call.live t + Call.pending t) p.threads ≤ total Call.holds p.threads :=
    total_le_total fun t _ => Call.live_add_pending_le t
  rwa [total_add] at h

theorem active_le (h : Inv limit p) : p.shared.active ≤ limit.count := by
  have hle := total_add_le p
  have := h.permits
  have := h.active
  omega

theorem active_lt (h : Inv limit p) : p.shared.active + 1 < Usize.size := by
  have := h.active_le
  have := limit.le_max
  have := MAX_PERMITS_lt
  omega

theorem le_active (h : Inv limit p) {t : Call} (ht : t ∈ p.threads) :
    t.live + t.pending ≤ p.shared.active := by
  have hl := le_total (w := Call.live) ht
  have hp := le_total (w := Call.pending) ht
  rw [h.active]
  omega

end Inv

theorem inv_init : Inv limit ⟨.new limit, []⟩ where
  permits := rfl
  active := rfl
  ticket := nofun
  parked := nofun

theorem inv_spawn {p : Pool AdmissionGate Call} (kind : Kind) (h : Inv limit p) :
    Inv limit ⟨p.shared, p.threads ++ [start kind]⟩ := by
  have hnew : (start kind).holds = 0 ∧ (start kind).live = 0 ∧ (start kind).pending = 0 ∧
      (start kind).ticket = none := by
    cases kind <;> exact ⟨rfl, rfl, rfl, rfl⟩
  obtain ⟨hh, hl, hp, ht⟩ := hnew
  constructor
  · rw [total_concat, hh]
    exact h.permits
  · rw [total_concat, total_concat, hl, hp]
    exact h.active
  · intro t hmem f hf
    rcases List.mem_append.mp hmem with hmem | hmem
    · exact h.ticket t hmem f hf
    · rw [List.mem_singleton.mp hmem, ht] at hf
      cases hf
  · intro f hmem hf
    rcases List.mem_append.mp hmem with hmem | hmem
    · rcases h.parked f hmem hf with hpos | ⟨t, hmt, hn⟩
      · exact .inl hpos
      · exact .inr ⟨t, List.mem_append_left _ hmt, hn⟩
    · have := congrArg Call.ticket (List.mem_singleton.mp hmem)
      rw [ht] at this
      cases this

theorem inv_next {p : Pool AdmissionGate Call} {i : Nat} {t t' : Call} {e : Action}
    {g' : AdmissionGate} (h : Inv limit p) (hi : p.threads[i]? = some t)
    (hn : next p.shared t e = some (g', t')) : Inv limit ⟨g', p.threads.set i t'⟩ := by
  have hmem : t ∈ p.threads := List.mem_of_getElem? hi
  have hcalls : p.shared.changed.calls ≤ g'.changed.calls := by
    rcases changed_of_next hn with hc | ⟨hc, -⟩ <;> rw [hc]
    exact Nat.le_succ _
  constructor
  · have := available_of_next hn
    have := total_set Call.holds hi t'
    have := h.permits
    show g'.permits.available + total Call.holds (p.threads.set i t') = limit.count
    omega
  · have := active_of_next hn (h.le_active hmem) h.active_lt
    have := total_set Call.live hi t'
    have := total_set Call.pending hi t'
    have := h.active
    show g'.active = total Call.live (p.threads.set i t') + total Call.pending (p.threads.set i t')
    omega
  · intro u hu f hf
    rcases (mem_set_iff hi).mp hu with rfl | ⟨j, -, hj⟩
    · obtain ⟨rfl, ⟨rfl, -⟩ | ⟨rfl, -, -⟩⟩ := ticket_of_next hn hf
      · exact Nat.le_refl _
      · exact h.ticket _ hmem f rfl
    · exact Nat.le_trans (h.ticket u (List.mem_of_getElem? hj) f hf) hcalls
  · intro f hf hw
    rcases (mem_set_iff hi).mp hf with rfl | ⟨j, -, hj⟩
    · -- the call has just parked, after a load that saw the count above zero
      obtain ⟨rfl, ⟨-, ht⟩ | ⟨-, -, hpos⟩⟩ := ticket_of_next hn rfl
      · cases ht
      · exact .inl hpos
    · have hle := h.ticket _ (List.mem_of_getElem? hj) f rfl
      have heq := Notify.delivered_eq_false_iff.mp hw
      -- nothing was notified by this step, so a call about to notify still is
      obtain hc | ⟨hc, hkeep⟩ := changed_of_next hn
      · rw [hc, Notify.calls_notifyWaiters] at heq
        omega
      · rw [hc] at hw
        rcases h.parked f (List.mem_of_getElem? hj) hw with hpos | ⟨u, hu, hnot⟩
        · rcases Nat.eq_zero_or_pos g'.active with hz | hpos'
          · exact .inr ⟨t', List.mem_of_getElem? ((getElem?_set_iff hi).mpr (.inl ⟨rfl, rfl⟩)),
              notifies_of_next hn hpos h.active_lt hz⟩
          · exact .inl hpos'
        · obtain ⟨k, hk⟩ := List.mem_iff_getElem?.mp hu
          right
          by_cases hki : k = i
          · subst hki
            obtain rfl : u = t := Option.some.inj (hk.symm.trans hi)
            exact ⟨t', (mem_set_iff hi).mpr (.inl rfl), hkeep hnot⟩
          · exact ⟨u, (mem_set_iff hi).mpr (.inr ⟨k, hki, hk⟩), hnot⟩

theorem inv_run (es : List (Event Kind Action)) : Inv limit ((gate limit).run es) :=
  (gate limit).invariant inv_init (fun _ kind h => inv_spawn kind h)
    (fun _ _ _ _ _ _ h hi hn => inv_next h hi hn) es

/-! ## Draining -/

/-- The gate has left `RUNNING` and no call of `S` is past its second check. -/
structure Barred (S : Nat → Prop) (p : Pool AdmissionGate Call) : Prop where
  state : p.shared.state ≠ .running
  unpassed : ∀ i, S i → ∀ t, p.threads[i]? = some t → t.passed = false

section Barred

variable {S : Nat → Prop} {p : Pool AdmissionGate Call}

theorem barred_spawn (kind : Kind) (h : Barred S p) :
    Barred S ⟨p.shared, p.threads ++ [start kind]⟩ := by
  refine ⟨h.state, fun i hS t ht => ?_⟩
  rcases getElem?_concat_iff.mp ht with ht | ⟨-, rfl⟩
  · exact h.unpassed i hS t ht
  · cases kind <;> rfl

theorem barred_next {i : Nat} {t t' : Call} {e : Action} {g' : AdmissionGate} (h : Barred S p)
    (hi : p.threads[i]? = some t) (hn : next p.shared t e = some (g', t')) :
    Barred S ⟨g', p.threads.set i t'⟩ := by
  refine ⟨state_of_next hn h.state, fun j hS u hu => ?_⟩
  rcases (getElem?_set_iff hi).mp hu with ⟨rfl, rfl⟩ | ⟨-, hu⟩
  · by_contra hpassed
    rcases passed_of_next hn (Bool.eq_true_of_not_eq_false hpassed) with ht | ⟨-, hrun⟩
    · rw [h.unpassed j hS t hi] at ht
      cases ht
    · exact h.state hrun
  · exact h.unpassed j hS u hu

/-- **A barred call stays barred**, whatever else runs. -/
theorem barred_run {es : List (Event Kind Action)} (h : Barred S ((gate limit).run es))
    (later : List (Event Kind Action)) : Barred S ((gate limit).run (es ++ later)) :=
  (gate limit).stable (J := fun _ => True) (fun _ => trivial) (fun _ kind _ h => barred_spawn kind h)
    (fun _ _ _ _ _ _ _ h hi hn => barred_next h hi hn) h later

theorem Barred.not_guard (h : Barred S p) {i : Nat} (hS : S i) : p.threads[i]? ≠ some .guard :=
  fun hi => Bool.noConfusion (h.unpassed i hS _ hi)

end Barred

/-- A load that sees no active call, outside `RUNNING`, has seen the end: nobody is admitted. -/
theorem barred_of_active_eq_zero {p : Pool AdmissionGate Call} (h : Inv limit p)
    (hs : p.shared.state ≠ .running) (hz : p.shared.active = 0) : Barred (fun _ => True) p := by
  refine ⟨hs, fun i _ t ht => ?_⟩
  have := h.le_active (List.mem_of_getElem? ht)
  have hzero : t.live + t.pending = 0 := by omega
  cases t <;> first | rfl | cases hzero

/-- `drained` returns only from a load that saw no active call. -/
theorem returned_of_next {g g' : AdmissionGate} {t : Call} {e : Action}
    (h : next g t e = some (g', .finished .drained)) : g' = g ∧ g.active = 0 := by
  generalize ht : Call.finished .drained = t' at h
  cases step_of_next h with
  | loadActiveNone hz => exact ⟨rfl, hz⟩
  | @dropPermit r => cases r <;> cases ht
  | @closeNotify c => cases c <;> cases ht
  | _ => cases ht

/-- The `drained` call `i` began outside `RUNNING`; if it has returned, nobody is admitted. -/
structure Awaited (i : Nat) (p : Pool AdmissionGate Call) : Prop where
  state : p.shared.state ≠ .running
  barred : p.threads[i]? = some (.finished .drained) → Barred (fun _ => True) p

theorem awaited_run {i : Nat} {es : List (Event Kind Action)}
    (h : Awaited i ((gate limit).run es)) (later : List (Event Kind Action)) :
    Awaited i ((gate limit).run (es ++ later)) := by
  refine (gate limit).stable inv_run ?_ ?_ h later
  · rintro p kind - ⟨hs, hb⟩
    refine ⟨hs, fun ht => ?_⟩
    rcases getElem?_concat_iff.mp ht with ht | ⟨-, ht⟩
    · exact barred_spawn kind (hb ht)
    · cases kind <;> cases ht
  · rintro p j t e g' t' hinv ⟨hs, hb⟩ hj hn
    refine ⟨state_of_next hn hs, fun ht => ?_⟩
    rcases (getElem?_set_iff hj).mp ht with ⟨rfl, rfl⟩ | ⟨-, ht⟩
    · obtain ⟨-, hz⟩ := returned_of_next hn
      exact barred_next (barred_of_active_eq_zero hinv hs hz) hj hn
    · exact barred_next (hb ht) hj hn

/-- Whoever takes the gate out of `RUNNING` leaves it so. -/
theorem leaves_of_next {g g' : AdmissionGate} {t t' : Call} {e : Action}
    (h : next g t e = some (g', t')) (hl : t'.leaves = true) :
    t.leaves = true ∨ g'.state ≠ .running := by
  cases step_of_next h with
  | beginDraining => exact .inr nofun
  | beginDrainingLate hs => exact .inr hs
  | close => exact .inr nofun
  | closePermits => exact .inl rfl
  | closeNotify => exact .inl rfl
  | @dropPermit r => cases r <;> cases hl
  | _ => cases hl

theorem leaves_run (es : List (Event Kind Action)) :
    ∀ t ∈ ((gate limit).run es).threads, t.leaves = true →
      ((gate limit).run es).shared.state ≠ .running := by
  refine (gate limit).invariant
    (I := fun p => ∀ t ∈ p.threads, t.leaves = true → p.shared.state ≠ .running) nofun ?_ ?_ es
  · intro p kind h t ht hl
    rcases List.mem_append.mp ht with ht | ht
    · exact h t ht hl
    · rw [List.mem_singleton.mp ht] at hl
      cases kind <;> cases hl
  · intro p i t e g' t' h hi hn u hu hl
    rcases (mem_set_iff hi).mp hu with rfl | ⟨j, -, hj⟩
    · rcases leaves_of_next hn hl with ht | hs
      · exact state_of_next hn (h t (List.mem_of_getElem? hi) ht)
      · exact hs
    · exact state_of_next hn (h u (List.mem_of_getElem? hj) hl)

/-! ## The safety of the gate -/

/-- **The gate is safe.**  In every interleaving of the atomic steps: the active
count is the number of live guards and entries under way, it never exceeds the
limit and never wraps; `begin_draining` and `close` leave the gate outside
`RUNNING`; from then on a call that has not passed its second check never gets a
guard; a `drained` that began then returns only when nobody is admitted and
nobody will be; and no `drained` sleeps through the last release. -/
theorem gate_safe (limit : PermitCount) (es : List (Event Kind Action)) :
    let p : Pool AdmissionGate Call := (gate limit).run es
    (p.shared.active = total Call.live p.threads + total Call.pending p.threads ∧
      p.shared.active ≤ limit.count ∧ p.shared.active + 1 < Usize.size ∧
      ∀ t ∈ p.threads, t = .guard ∨ t = .refused → 0 < p.shared.active) ∧
    (∀ t ∈ p.threads, t.leaves = true → p.shared.state ≠ .running) ∧
    (p.shared.state ≠ .running → ∀ i : Nat, (∀ t, p.threads[i]? = some t → t.passed = false) →
      ∀ later : List (Event Kind Action),
        ((gate limit).run (es ++ later)).threads[i]? ≠ some .guard) ∧
    (p.shared.state ≠ .running → ∀ i : Nat, p.threads[i]? = none →
      ∀ later : List (Event Kind Action),
        ((gate limit).run (es ++ later)).threads[i]? = some (.finished .drained) →
      ∀ after : List (Event Kind Action),
        Call.guard ∉ ((gate limit).run (es ++ later ++ after)).threads) ∧
    (∀ f, Call.parked f ∈ p.threads → p.shared.active = 0 →
      p.shared.changed.delivered f = true ∨ ∃ t ∈ p.threads, t.notifies = true) := by
  intro p
  have hinv : Inv limit p := inv_run es
  refine ⟨⟨hinv.active, hinv.active_le, hinv.active_lt, ?_⟩, leaves_run es, ?_, ?_, ?_⟩
  · rintro t ht (rfl | rfl) <;> exact hinv.le_active ht
  · intro hs i hi later
    have hb : Barred (fun j => j = i) p := ⟨hs, by rintro _ rfl; exact hi⟩
    exact (barred_run hb later).not_guard rfl
  · intro hs i hi later hret after hmem
    have ha : Awaited i p := ⟨hs, by rw [hi]; exact nofun⟩
    obtain ⟨j, hj⟩ := List.mem_iff_getElem?.mp hmem
    exact (barred_run ((awaited_run ha later).barred hret) after).not_guard trivial hj
  · intro f hf hz
    rcases Bool.eq_false_or_eq_true (p.shared.changed.delivered f) with hd | hd
    · exact .inl hd
    · rcases hinv.parked f hf hd with hpos | hnot
      · omega
      · exact .inr hnot

/-- A gate of one permit. -/
def onePermit : PermitCount := ⟨1, by decide +kernel⟩

def steps (i n : Nat) : List (Event Kind Action) := List.replicate n (.act i .run)

/-- One call gets the guard, and draining begins. -/
def drainOfOne : List (Event Kind Action) :=
  [.spawn .tryEnter] ++ steps 0 5 ++ [.spawn .beginDraining] ++ steps 1 3

/-- A drain parks on the guard, a late call is refused, and the last release wakes the drain. -/
def drainOfOneEnd : List (Event Kind Action) :=
  [.spawn .drained] ++ steps 2 2 ++ [.spawn .tryEnter] ++ steps 3 1 ++ steps 0 3 ++ steps 2 3

theorem gate_safe_drain :
    ∀ after : List (Event Kind Action),
      Call.guard ∉ ((gate onePermit).run (drainOfOne ++ drainOfOneEnd ++ after)).threads :=
  (gate_safe onePermit drainOfOne).2.2.2.1 (by decide +kernel) 2 (by decide +kernel) drainOfOneEnd
    (by decide +kernel)

end AdmissionGate

end Fusen.Runtime
