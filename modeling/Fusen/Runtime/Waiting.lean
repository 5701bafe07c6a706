import Fusen.Runtime.Admission

/-!
# Waiting for admission

`acquire_admission`, of the server and of the client: `try_enter` first, and if the gate is
full a place in a bounded queue, from which the call awaits `enter` until its deadline or
the longest wait is over.  Every access to the gate and to the places is a step of its own.

* `bounded_admission`: no permit and no place is ever lost, so at most `limit` calls are
  inside and at most `capacity` wait; a call is turned away only if all places are taken.
* `admission_ends`: a call is admitted or refused without the help of any other call.

The deadline of a wait is an `Instant`: the longest wait is taken to be representable, as
`Deadline::after` panics otherwise.
-/

namespace Fusen.Runtime

open Lib

/-- Why a call is not admitted. -/
inductive Refusal where
  | draining
  | overloaded
  | queueFull
  | queueTimeout
  | deadlineExceeded
  deriving DecidableEq, Repr

/-- Whose `acquire_admission` it is. -/
inductive Side where
  | server
  | client
  deriving DecidableEq, Repr

/-- What a call is told for which there is no place in the queue. -/
def Side.queueFull : Side → Refusal
  | .server => .overloaded
  | .client => .queueFull

/-- The gate and the places of the queue, if there is one. -/
structure Entrance where
  gate : AdmissionGate
  places : Option Semaphore

namespace Entrance

open AdmissionGate (Call)

/-- Where a call stands; the rest are the calls of the gate's other methods. -/
inductive Entrant where
  /-- In `try_enter`. -/
  | trying (t : Call)
  /-- The gate is full; `try_acquire_owned` on the places comes next. -/
  | queueing
  /-- In `enter`, with a place. -/
  | waiting (t : Call)
  /-- `enter` has returned; the place is dropped next. -/
  | leaving (t : Call)
  /-- The deadline of the wait has elapsed; the place is dropped next. -/
  | expired
  /-- The wait has timed out; the deadline of the call is looked at next. -/
  | timedOut
  /-- The call itself was dropped while it waited; its place comes next. -/
  | abandoned
  /-- Admitted, until its guard is dropped. -/
  | inside (t : Call)
  | refused (r : Refusal)
  | gone
  | other (t : Call)
  deriving DecidableEq

inductive Kind where
  | acquireAdmission
  | beginDraining
  | close
  | drained

/-- `assign` hands a waiting call a permit, `expire` is the deadline of its wait and `late`
a look at the clock behind the deadline of the call; `cancel` drops it. -/
inductive Action where
  | run
  | assign
  | expire
  | late
  | cancel

def start : Kind → Entrant
  | .acquireAdmission => .trying .tryEnter
  | .beginDraining => .other .beginDraining
  | .close => .other .close
  | .drained => .other .drained

/-- What follows a step of `try_enter`. -/
def tried (places : Option Semaphore) : Call → Entrant
  | .guard => .inside .guard
  | .finished (.error .overloaded) => if places.isSome then .queueing else .refused .overloaded
  | .finished _ => .refused .draining
  | t => .trying t

/-- What follows a step of `enter`. -/
def waited : Call → Entrant
  | .guard => .leaving .guard
  | .finished out => .leaving (.finished out)
  | t => .waiting t

/-- What follows the drop of the place. -/
def left : Call → Entrant
  | .guard => .inside .guard
  | .finished (.error .overloaded) => .refused .overloaded
  | _ => .refused .draining

def stayed : Call → Entrant
  | .finished _ => .gone
  | t => .inside t

def dropPlace (s : Entrance) : Entrance := { s with places := s.places.map Semaphore.release }

/-- A step of the gate. -/
def through (s : Entrance) (t : Call) (e : AdmissionGate.Action) (after : Call → Entrant) :
    Option (Entrance × Entrant) :=
  (s.gate.next t e).map fun (gate, t') => ({ s with gate }, after t')

/-- The atomic steps.  `timeout_at` polls the wait before it looks at the deadline. -/
def next (side : Side) (s : Entrance) : Entrant → Action → Option (Entrance × Entrant)
  | .trying t, .run => s.through t .run (tried s.places)
  | .queueing, .run =>
    match s.places.bind Semaphore.tryAcquire with
    | some places => some ({ s with places := some places }, .waiting .enter)
    | none => some (s, .refused side.queueFull)
  | .waiting t, .run => s.through t .run waited
  | .waiting t, .assign => s.through t .assign waited
  | .waiting t, .expire => if t = .enter then none else s.through t .cancel fun _ => .expired
  | .waiting t, .cancel => if t = .enter then none else s.through t .cancel fun _ => .abandoned
  | .leaving t, .run => some (s.dropPlace, left t)
  | .expired, .run => some (s.dropPlace, .timedOut)
  | .timedOut, .run => some (s, .refused .queueTimeout)
  | .timedOut, .late => some (s, .refused .deadlineExceeded)
  | .abandoned, .run => some (s.dropPlace, .gone)
  | .inside t, .run => s.through t .run stayed
  | .other t, .run => s.through t .run .other
  | .other t, .cancel => s.through t .cancel .other
  | _, _ => none

/-! ## What a call holds -/

namespace Entrant

/-- The call of the gate that this call is in. -/
def inner : Entrant → Call
  | .trying t | .waiting t | .leaving t | .inside t | .other t => t
  | _ => .finished .cancelled

/-- The call has a place in the queue. -/
def place : Entrant → Nat
  | .waiting _ | .leaving _ | .expired | .abandoned => 1
  | _ => 0

/-- The call has its guard. -/
def admitted : Entrant → Nat
  | .inside .guard | .leaving .guard => 1
  | _ => 0

/-- In `try_enter`, before it has returned. -/
def viaTry : Call → Bool
  | .tryEnter | .tryAcquire | .nameError => true
  | .count | .recheck | .admitted | .refused => true
  | .releaseNotify .refused | .dropPermit .refused => true
  | _ => false

/-- In `enter`, before it has returned. -/
def viaEnter : Call → Bool
  | .enter | .acquire | .assigned => true
  | .count | .recheck | .admitted | .refused => true
  | .releaseNotify .refused | .dropPermit .refused => true
  | _ => false

/-- What a call can be, at an entrance with a queue or without one. -/
def Sound (side : Side) (queue : Bool) : Entrant → Prop
  | .trying t => viaTry t = true
  | .queueing => queue = true
  | .waiting t => viaEnter t = true
  | .leaving t => t = .guard ∨ t = .finished (.error .draining)
  | .inside t => t = .guard ∨ t = .releaseNotify .dropped ∨ t = .dropPermit .dropped
  | .refused r => (r = .overloaded → queue = false ∨ side = .server) ∧
    (r = .queueFull → side = .client)
  | _ => True

theorem admitted_le (u : Entrant) : u.admitted ≤ u.inner.holds := by
  unfold admitted
  split <;> first | exact Nat.le_refl _ | exact Nat.zero_le _

end Entrant

/-- A call that holds nothing of the gate and that nobody waits for. -/
structure Idle (t : Call) : Prop where
  holds : t.holds = 0
  ticket : t.ticket = none
  notifies : t.notifies = false

theorem idle_finished (out : AdmissionGate.Outcome) : Idle (.finished out) := ⟨rfl, rfl, rfl⟩

theorem Idle.passed {t : Call} (h : Idle t) : t.passed = false := by
  have := h.holds
  cases t <;> first | rfl | cases this

/-- A call that holds nothing can be taken for another one. -/
theorem inv_set_idle {limit : PermitCount} {p : Pool AdmissionGate Call} {i : Nat} {t t' : Call}
    (h : AdmissionGate.Inv limit p) (hi : p.threads[i]? = some t) (ht : Idle t) (ht' : Idle t') :
    AdmissionGate.Inv limit ⟨p.shared, p.threads.set i t'⟩ where
  permits := by
    have hset := total_set Call.holds hi t'
    have := h.permits
    have := ht.holds
    have := ht'.holds
    show p.shared.permits.available + total Call.holds (p.threads.set i t') = limit.count
    omega
  active := by
    have hlive := total_set Call.live hi t'
    have hpending := total_set Call.pending hi t'
    have := h.active
    have := ht.holds
    have := ht'.holds
    have := t.live_add_pending_le
    have := t'.live_add_pending_le
    show p.shared.active =
      total Call.live (p.threads.set i t') + total Call.pending (p.threads.set i t')
    omega
  ticket := by
    intro u hu f hf
    rcases (mem_set_iff hi).mp hu with rfl | ⟨j, -, hj⟩
    · rw [ht'.ticket] at hf
      cases hf
    · exact h.ticket u (List.mem_of_getElem? hj) f hf
  parked := by
    intro f hf hw
    rcases (mem_set_iff hi).mp hf with heq | ⟨j, -, hj⟩
    · have := ht'.ticket
      rw [← heq] at this
      cases this
    · rcases h.parked f (List.mem_of_getElem? hj) hw with hpos | ⟨u, hu, hnotify⟩
      · exact .inl hpos
      · obtain ⟨k, hk⟩ := List.mem_iff_getElem?.mp hu
        refine .inr ⟨u, (mem_set_iff hi).mpr (.inr ⟨k, ?_, hk⟩), hnotify⟩
        rintro rfl
        obtain rfl : u = t := Option.some.inj (hk.symm.trans hi)
        rw [ht.notifies] at hnotify
        cases hnotify

/-! ## The steps of the gate -/

section Gate

variable {g g' : AdmissionGate} {t t' : Call} {e : AdmissionGate.Action}

theorem release_of_next {r : AdmissionGate.Release}
    (ht : t = .guard ∧ r = .dropped ∨ t = .refused ∧ r = .refused)
    (h : g.next t .run = some (g', t')) : t' = .releaseNotify r ∨ t' = .dropPermit r := by
  have hr : some (g.releaseOne r) = some (g', t') := by
    rcases ht with ⟨rfl, rfl⟩ | ⟨rfl, rfl⟩ <;> exact h
  simp only [AdmissionGate.releaseOne, Option.some.injEq, Prod.mk.injEq] at hr
  rw [← hr.2]
  by_cases hone : g.active = 1
  · exact .inl (if_pos hone)
  · exact .inr (if_neg hone)

theorem cancelled_of_next (h : g.next t .cancel = some (g', t')) : t' = .finished .cancelled := by
  cases AdmissionGate.step_of_next h <;> rfl

/-- `try_enter` goes on, or returns a guard or an error. -/
theorem viaTry_of_next (h : g.next t .run = some (g', t')) (ht : Entrant.viaTry t = true) :
    Entrant.viaTry t' = true ∨ t' = .guard ∨ ∃ e, t' = .finished (.error e) := by
  by_cases href : t = .refused
  · rcases release_of_next (.inr ⟨href, rfl⟩) h with rfl | rfl <;> exact .inl rfl
  · cases AdmissionGate.step_of_next h with
    | releaseLast hr | releaseOther hr =>
      rcases hr with rfl | rfl
      · cases ht
      · exact absurd rfl href
    | @releaseNotify r => cases r <;> first | exact .inl rfl | cases ht
    | @dropPermit r => cases r <;> first | exact .inr (.inr ⟨_, rfl⟩) | cases ht
    | tryEnterDraining | nameOverloaded | nameDraining => exact .inr (.inr ⟨_, rfl⟩)
    | admitted => exact .inr (.inl rfl)
    | tryEnter | tryAcquire | tryAcquireFull | count | recheck | recheckRefused => exact .inl rfl
    | _ => cases ht

/-- `enter` goes on, or returns a guard, or finds the gate draining; it is never overloaded. -/
theorem viaEnter_of_next (h : g.next t e = some (g', t')) (he : e ≠ .cancel)
    (ht : Entrant.viaEnter t = true) :
    Entrant.viaEnter t' = true ∨ t' = .guard ∨ t' = .finished (.error .draining) := by
  by_cases href : t = .refused
  · subst href
    cases e with
    | run => rcases release_of_next (.inr ⟨rfl, rfl⟩) h with rfl | rfl <;> exact .inl rfl
    | assign | cancel => cases h
  · cases AdmissionGate.step_of_next h with
    | releaseLast hr | releaseOther hr =>
      rcases hr with rfl | rfl
      · cases ht
      · exact absurd rfl href
    | @releaseNotify r => cases r <;> first | exact .inl rfl | cases ht
    | @dropPermit r => cases r <;> first | exact .inr (.inr rfl) | cases ht
    | enterDraining | acquireClosed | assignedClosed => exact .inr (.inr rfl)
    | admitted => exact .inr (.inl rfl)
    | enterCancel | acquireCancel | assignedCancel | drainedCancel | parkedCancel =>
      exact absurd rfl he
    | enter | acquire | assign | assigned | count | recheck | recheckRefused => exact .inl rfl
    | _ => cases ht

/-- A guard is dropped step by step. -/
theorem inside_of_next (h : g.next t .run = some (g', t'))
    (ht : t = .guard ∨ t = .releaseNotify .dropped ∨ t = .dropPermit .dropped) :
    t' = .releaseNotify .dropped ∨ t' = .dropPermit .dropped ∨ ∃ out, t' = .finished out := by
  rcases ht with rfl | rfl | rfl
  · exact (release_of_next (.inl ⟨rfl, rfl⟩) h).imp_right .inl
  · cases h
    exact .inr (.inl rfl)
  · cases h
    exact .inr (.inr ⟨_, rfl⟩)

end Gate

/-! ## One atomic step -/

section Step

variable {side : Side} {s s' : Entrance} {u u' : Entrant} {e : Action}

/-- What a call can do, by where it stands. -/
inductive Step (side : Side) (s : Entrance) : Entrant → Action → Entrance → Entrant → Prop
  | trying {t t' : Call} {gate : AdmissionGate} (h : s.gate.next t .run = some (gate, t')) :
    Step side s (.trying t) .run { s with gate } (tried s.places t')
  | queued {places places' : Semaphore} (hs : s.places = some places)
      (h : places.tryAcquire = some places') :
    Step side s .queueing .run { s with places := some places' } (.waiting .enter)
  | full (h : s.places.bind Semaphore.tryAcquire = none) :
    Step side s .queueing .run s (.refused side.queueFull)
  | waiting {e : Action} {t t' : Call} {gate : AdmissionGate} {e' : AdmissionGate.Action}
      (he : e' ≠ .cancel) (h : s.gate.next t e' = some (gate, t')) :
    Step side s (.waiting t) e { s with gate } (waited t')
  | expire {t t' : Call} {gate : AdmissionGate} (h : s.gate.next t .cancel = some (gate, t')) :
    Step side s (.waiting t) .expire { s with gate } .expired
  | abandon {t t' : Call} {gate : AdmissionGate} (h : s.gate.next t .cancel = some (gate, t')) :
    Step side s (.waiting t) .cancel { s with gate } .abandoned
  | leaving {t : Call} : Step side s (.leaving t) .run s.dropPlace (left t)
  | expired : Step side s .expired .run s.dropPlace .timedOut
  | timedOut : Step side s .timedOut .run s (.refused .queueTimeout)
  | late : Step side s .timedOut .late s (.refused .deadlineExceeded)
  | abandoned : Step side s .abandoned .run s.dropPlace .gone
  | inside {t t' : Call} {gate : AdmissionGate} (h : s.gate.next t .run = some (gate, t')) :
    Step side s (.inside t) .run { s with gate } (stayed t')
  | other {e : Action} {t t' : Call} {gate : AdmissionGate} {e' : AdmissionGate.Action}
      (h : s.gate.next t e' = some (gate, t')) :
    Step side s (.other t) e { s with gate } (.other t')

theorem through_eq_some_iff {t : Call} {e : AdmissionGate.Action} {after : Call → Entrant} :
    s.through t e after = some (s', u') ↔ ∃ gate t', s.gate.next t e = some (gate, t') ∧
      s' = { s with gate } ∧ u' = after t' := by
  unfold through
  rw [Option.map_eq_some_iff]
  constructor
  · rintro ⟨⟨gate, t'⟩, h, heq⟩
    cases heq
    exact ⟨gate, t', h, rfl, rfl⟩
  · rintro ⟨gate, t', h, rfl, rfl⟩
    exact ⟨(gate, t'), h, rfl⟩

/-- A step out of the queue, if the call has awaited. -/
theorem awaited_eq_some {t : Call} {after : Call → Entrant}
    (h : (if t = .enter then none else s.through t .cancel after) = some (s', u')) :
    s.through t .cancel after = some (s', u') := by
  by_cases ht : t = .enter
  · rw [if_pos ht] at h
    cases h
  · rwa [if_neg ht] at h

/-- **Every step is one of these.** -/
theorem step_of_next (h : next side s u e = some (s', u')) : Step side s u e s' u' := by
  cases u with
  | trying t =>
    cases e with
    | run =>
      obtain ⟨gate, t', hgate, rfl, rfl⟩ := through_eq_some_iff.mp h
      exact .trying hgate
    | _ => cases h
  | queueing =>
    cases e with
    | run =>
      cases hplaces : s.places.bind Semaphore.tryAcquire with
      | none =>
        simp only [next, hplaces, Option.some.injEq, Prod.mk.injEq] at h
        obtain ⟨rfl, rfl⟩ := h
        exact .full hplaces
      | some places' =>
        simp only [next, hplaces, Option.some.injEq, Prod.mk.injEq] at h
        obtain ⟨rfl, rfl⟩ := h
        obtain ⟨places, hs, hacquire⟩ := Option.bind_eq_some_iff.mp hplaces
        exact .queued hs hacquire
    | _ => cases h
  | waiting t =>
    cases e with
    | run =>
      obtain ⟨gate, t', hgate, rfl, rfl⟩ := through_eq_some_iff.mp h
      refine .waiting ?_ hgate
      exact nofun
    | assign =>
      obtain ⟨gate, t', hgate, rfl, rfl⟩ := through_eq_some_iff.mp h
      refine .waiting ?_ hgate
      exact nofun
    | expire =>
      obtain ⟨gate, t', hgate, rfl, rfl⟩ := through_eq_some_iff.mp (awaited_eq_some h)
      exact .expire hgate
    | cancel =>
      obtain ⟨gate, t', hgate, rfl, rfl⟩ := through_eq_some_iff.mp (awaited_eq_some h)
      exact .abandon hgate
    | late => cases h
  | leaving t =>
    cases e with
    | run => cases h; exact .leaving
    | _ => cases h
  | expired =>
    cases e with
    | run => cases h; exact .expired
    | _ => cases h
  | timedOut =>
    cases e with
    | run => cases h; exact .timedOut
    | late => cases h; exact .late
    | _ => cases h
  | abandoned =>
    cases e with
    | run => cases h; exact .abandoned
    | _ => cases h
  | inside t =>
    cases e with
    | run =>
      obtain ⟨gate, t', hgate, rfl, rfl⟩ := through_eq_some_iff.mp h
      exact .inside hgate
    | _ => cases h
  | refused r => cases e <;> cases h
  | gone => cases e <;> cases h
  | other t =>
    cases e with
    | run =>
      obtain ⟨gate, t', hgate, rfl, rfl⟩ := through_eq_some_iff.mp h
      exact .other hgate
    | cancel =>
      obtain ⟨gate, t', hgate, rfl, rfl⟩ := through_eq_some_iff.mp h
      exact .other hgate
    | _ => cases h

theorem tried_of_viaTry {places : Option Semaphore} {t : Call} (h : Entrant.viaTry t = true) :
    tried places t = .trying t := by
  cases t <;> first | rfl | cases h

theorem waited_of_viaEnter {t : Call} (h : Entrant.viaEnter t = true) : waited t = .waiting t := by
  cases t <;> first | rfl | cases h

/-- A call stays what it can be. -/
theorem sound_of_next (h : next side s u e = some (s', u')) (hu : u.Sound side s.places.isSome) :
    u'.Sound side s.places.isSome := by
  cases step_of_next h with
  | trying hgate =>
    rcases viaTry_of_next hgate hu with ht | rfl | ⟨error, rfl⟩
    · rw [tried_of_viaTry ht]
      exact ht
    · exact .inl rfl
    · cases error with
      | overloaded =>
        unfold tried
        cases hqueue : s.places.isSome with
        | true => exact (rfl : true = true)
        | false => exact ⟨fun _ => .inl rfl, nofun⟩
      | draining => exact ⟨nofun, nofun⟩
  | queued => exact (rfl : Entrant.viaEnter .enter = true)
  | full =>
    cases side with
    | server => exact ⟨fun _ => .inr rfl, nofun⟩
    | client => exact ⟨nofun, fun _ => rfl⟩
  | waiting he hgate =>
    rcases viaEnter_of_next hgate he hu with ht | rfl | rfl
    · rw [waited_of_viaEnter ht]
      exact ht
    · exact .inl rfl
    · exact .inr rfl
  | leaving =>
    rcases hu with rfl | rfl
    · exact .inl rfl
    · exact ⟨nofun, nofun⟩
  | inside hgate =>
    rcases inside_of_next hgate hu with rfl | rfl | ⟨out, rfl⟩
    · exact .inr (.inl rfl)
    · exact .inr (.inr rfl)
    · trivial
  | timedOut | late => exact ⟨nofun, nofun⟩
  | _ => trivial

/-- **Every step is a step of the gate's call**, or nothing to the gate. -/
theorem gate_of_next (h : next side s u e = some (s', u')) {queue : Bool}
    (hu : u.Sound side queue) :
    (∃ e' t', s.gate.next u.inner e' = some (s'.gate, t') ∧
      (u'.inner = t' ∨ Idle t' ∧ Idle u'.inner)) ∨
    s'.gate = s.gate ∧ (u'.inner = u.inner ∨ Idle u.inner ∧ Idle u'.inner) := by
  cases step_of_next h with
  | @trying t t' gate hgate =>
    refine .inl ⟨_, _, hgate, ?_⟩
    rcases viaTry_of_next hgate hu with ht | rfl | ⟨error, rfl⟩
    · rw [tried_of_viaTry ht]
      exact .inl rfl
    · exact .inl rfl
    · refine .inr ⟨idle_finished _, ?_⟩
      cases error with
      | overloaded =>
        unfold tried
        cases s.places.isSome <;> exact idle_finished _
      | draining => exact idle_finished _
  | queued => exact .inr ⟨rfl, .inr ⟨idle_finished _, ⟨rfl, rfl, rfl⟩⟩⟩
  | waiting he hgate =>
    refine .inl ⟨_, _, hgate, .inl ?_⟩
    rcases viaEnter_of_next hgate he hu with ht | rfl | rfl
    · rw [waited_of_viaEnter ht]
      rfl
    · rfl
    · rfl
  | expire hgate | abandon hgate =>
    exact .inl ⟨_, _, hgate, .inl (cancelled_of_next hgate).symm⟩
  | leaving =>
    rcases hu with rfl | rfl
    · exact .inr ⟨rfl, .inl rfl⟩
    · exact .inr ⟨rfl, .inr ⟨idle_finished _, idle_finished _⟩⟩
  | inside hgate =>
    refine .inl ⟨_, _, hgate, ?_⟩
    rcases inside_of_next hgate hu with rfl | rfl | ⟨out, rfl⟩
    · exact .inl rfl
    · exact .inl rfl
    · exact .inr ⟨idle_finished _, idle_finished _⟩
  | other hgate => exact .inl ⟨_, _, hgate, .inl rfl⟩
  | full | expired | timedOut | late | abandoned => exact .inr ⟨rfl, .inl rfl⟩

/-- The free places. -/
def free (s : Entrance) : Nat := s.places.elim 0 Semaphore.available

/-- A step only moves places between the queue and the call. -/
theorem free_of_next (h : next side s u e = some (s', u')) {queue : Bool} (hu : u.Sound side queue)
    (hplace : 0 < u.place → s.places.isSome = true) : s'.free + u'.place = s.free + u.place := by
  have hdrop (h : s.places.isSome = true) : s.dropPlace.free = s.free + 1 := by
    obtain ⟨places, hs⟩ := Option.isSome_iff_exists.mp h
    unfold dropPlace free
    rw [hs]
    rfl
  cases step_of_next h with
  | @trying t t' gate hgate =>
    rcases viaTry_of_next hgate hu with ht | rfl | ⟨error, rfl⟩
    · rw [tried_of_viaTry ht]
      rfl
    · rfl
    · cases error with
      | overloaded =>
        unfold tried
        cases s.places.isSome <;> rfl
      | draining => rfl
  | queued hs hacquire =>
    have := Semaphore.available_of_tryAcquire hacquire
    unfold free
    rw [hs]
    exact this
  | waiting he hgate =>
    rcases viaEnter_of_next hgate he hu with ht | rfl | rfl
    · rw [waited_of_viaEnter ht]
      rfl
    · rfl
    · rfl
  | leaving => rcases hu with rfl | rfl <;> exact hdrop (hplace Nat.one_pos)
  | expired | abandoned => exact hdrop (hplace Nat.one_pos)
  | inside hgate =>
    rcases inside_of_next hgate hu with rfl | rfl | ⟨out, rfl⟩ <;> rfl
  | full | expire | abandon | timedOut | late | other => rfl

/-- The queue stays there, and open. -/
theorem places_of_next (h : next side s u e = some (s', u')) :
    s'.places.isSome = s.places.isSome ∧
      ((∀ places ∈ s.places, places.closed = false) →
        ∀ places ∈ s'.places, places.closed = false) := by
  have hdrop : s.dropPlace.places.isSome = s.places.isSome ∧
      ((∀ places ∈ s.places, places.closed = false) →
        ∀ places ∈ s.dropPlace.places, places.closed = false) := by
    unfold dropPlace
    refine ⟨Option.isSome_map, fun hopen places hmem => ?_⟩
    obtain ⟨before, hbefore, rfl⟩ := Option.map_eq_some_iff.mp hmem
    exact hopen before hbefore
  cases step_of_next h with
  | queued hs hacquire =>
    obtain ⟨hopen, -, rfl⟩ := Semaphore.tryAcquire_eq_some_iff.mp hacquire
    refine ⟨by rw [hs]; rfl, fun _ places hmem => ?_⟩
    cases hmem
    exact hopen
  | leaving | expired | abandoned => exact hdrop
  | trying | full | waiting | expire | abandon | timedOut | late | inside | other =>
    exact ⟨rfl, fun hopen => hopen⟩

end Step

end Entrance

open Entrance in
/-- All calls at an entrance; without a capacity there is no queue. -/
def entrance (side : Side) (limit : PermitCount) (capacity : Option PermitCount) :
    Threads Entrance Entrant Kind Action where
  shared := ⟨.new limit, capacity.map .new⟩
  start := start
  next := next side

namespace Entrance

open AdmissionGate (Call Barred)

variable {side : Side} {limit : PermitCount} {capacity : Option PermitCount}

/-- The places of the queue; without one there are none. -/
def placesOf (capacity : Option PermitCount) : Nat := capacity.elim 0 PermitCount.count

/-- The gate's part of a pool. -/
def gatePool (p : Pool Entrance Entrant) : Pool AdmissionGate Call :=
  ⟨p.shared.gate, p.threads.map Entrant.inner⟩

/-! ## The accounts of the entrance -/

/-- What every interleaving keeps: the gate's own accounts, and the places add up. -/
structure Inv (side : Side) (limit : PermitCount) (capacity : Option PermitCount)
    (p : Pool Entrance Entrant) : Prop where
  gate : AdmissionGate.Inv limit (gatePool p)
  queue : p.shared.places.isSome = capacity.isSome
  opened : ∀ places ∈ p.shared.places, places.closed = false
  places : p.shared.free + total Entrant.place p.threads = placesOf capacity
  sound : ∀ u ∈ p.threads, u.Sound side capacity.isSome

section Pool

variable {p : Pool Entrance Entrant} {i : Nat} {u u' : Entrant}

theorem getElem?_gatePool (hi : p.threads[i]? = some u) :
    (gatePool p).threads[i]? = some u.inner := by
  show (p.threads.map Entrant.inner)[i]? = _
  rw [List.getElem?_map, hi]
  rfl

theorem gatePool_set (s : Entrance) :
    gatePool ⟨s, p.threads.set i u'⟩ = ⟨s.gate, (gatePool p).threads.set i u'.inner⟩ := by
  unfold gatePool
  rw [List.map_set]

/-- Who has a place is at an entrance with a queue. -/
theorem Inv.queue_of_place (h : Inv side limit capacity p) (hmem : u ∈ p.threads)
    (hu : 0 < u.place) :
    p.shared.places.isSome = true := by
  by_contra hnone
  have hempty : capacity = none := by
    rw [h.queue] at hnone
    exact Option.not_isSome_iff_eq_none.mp hnone
  have hplaces := h.places
  have hle := le_total (w := Entrant.place) hmem
  rw [hempty] at hplaces
  have hzero : placesOf none = 0 := rfl
  omega

theorem inv_init : Inv side limit capacity ⟨⟨.new limit, capacity.map .new⟩, []⟩ where
  gate := AdmissionGate.inv_init
  queue := Option.isSome_map
  opened := by
    intro places hmem
    obtain ⟨count, -, rfl⟩ := Option.map_eq_some_iff.mp hmem
    rfl
  places := by
    cases capacity <;> rfl
  sound := nofun

theorem inv_spawn (kind : Kind) (h : Inv side limit capacity p) :
    Inv side limit capacity ⟨p.shared, p.threads ++ [start kind]⟩ where
  gate := by
    have hspawn (own : AdmissionGate.Kind) (heq : (start kind).inner = AdmissionGate.start own) :
        AdmissionGate.Inv limit (gatePool ⟨p.shared, p.threads ++ [start kind]⟩) := by
      unfold gatePool
      rw [List.map_append, List.map_singleton, heq]
      exact AdmissionGate.inv_spawn own h.gate
    cases kind with
    | acquireAdmission => exact hspawn .tryEnter rfl
    | beginDraining => exact hspawn .beginDraining rfl
    | close => exact hspawn .close rfl
    | drained => exact hspawn .drained rfl
  queue := h.queue
  opened := h.opened
  places := by
    have hnew : (start kind).place = 0 := by cases kind <;> rfl
    rw [total_concat, hnew]
    exact h.places
  sound := by
    intro u hu
    rcases List.mem_append.mp hu with hu | hu
    · exact h.sound u hu
    · rw [List.mem_singleton.mp hu]
      cases kind <;> first | exact (rfl : Entrant.viaTry .tryEnter = true) | trivial

theorem inv_next {s' : Entrance} {e : Action} (h : Inv side limit capacity p)
    (hi : p.threads[i]? = some u) (hn : next side p.shared u e = some (s', u')) :
    Inv side limit capacity ⟨s', p.threads.set i u'⟩ where
  gate := by
    have hgate := getElem?_gatePool hi
    rw [gatePool_set]
    rcases gate_of_next hn (h.sound u (List.mem_of_getElem? hi)) with
      ⟨e', t', ht, hinner | ⟨hidle, hinner⟩⟩ | ⟨hsame, hinner | ⟨hidle, hinner⟩⟩
    · rw [hinner]
      exact AdmissionGate.inv_next h.gate hgate ht
    · -- the call of the gate has returned, and another one takes its place
      have hstep := AdmissionGate.inv_next h.gate hgate ht
      have := inv_set_idle hstep ((getElem?_set_iff hgate).mpr (.inl ⟨rfl, rfl⟩)) hidle hinner
      rwa [List.set_set] at this
    · obtain ⟨hlt, heq⟩ := List.getElem?_eq_some_iff.mp hgate
      rw [hsame, hinner, ← heq, List.set_getElem_self]
      exact h.gate
    · rw [hsame]
      exact inv_set_idle h.gate hgate hidle hinner
  queue := (places_of_next hn).1.trans h.queue
  opened := (places_of_next hn).2 h.opened
  places := by
    have hmem := List.mem_of_getElem? hi
    have hfree := free_of_next hn (h.sound u hmem) (h.queue_of_place hmem)
    have hset := total_set Entrant.place hi u'
    have := h.places
    show s'.free + total Entrant.place (p.threads.set i u') = placesOf capacity
    omega
  sound := by
    intro w hw
    rcases (mem_set_iff hi).mp hw with rfl | ⟨j, -, hj⟩
    · have hsound := h.sound u (List.mem_of_getElem? hi)
      rw [← h.queue] at hsound ⊢
      exact sound_of_next hn hsound
    · exact h.sound w (List.mem_of_getElem? hj)

theorem inv_run (es : List (Event Kind Action)) :
    Inv side limit capacity ((entrance side limit capacity).run es) :=
  (entrance side limit capacity).invariant inv_init (fun _ kind h => inv_spawn kind h)
    (fun _ _ _ _ _ _ h hi hn => inv_next h hi hn) es

/-! ## Draining -/

theorem barred_spawn {S : Nat → Prop} (kind : Kind) (h : Barred S (gatePool p)) :
    Barred S (gatePool ⟨p.shared, p.threads ++ [start kind]⟩) := by
  have hspawn (own : AdmissionGate.Kind) (heq : (start kind).inner = AdmissionGate.start own) :
      Barred S (gatePool ⟨p.shared, p.threads ++ [start kind]⟩) := by
    unfold gatePool
    rw [List.map_append, List.map_singleton, heq]
    exact AdmissionGate.barred_spawn own h
  cases kind with
  | acquireAdmission => exact hspawn .tryEnter rfl
  | beginDraining => exact hspawn .beginDraining rfl
  | close => exact hspawn .close rfl
  | drained => exact hspawn .drained rfl

theorem barred_next {S : Nat → Prop} {s' : Entrance} {e : Action} (hinv : Inv side limit capacity p)
    (h : Barred S (gatePool p)) (hi : p.threads[i]? = some u)
    (hn : next side p.shared u e = some (s', u')) :
    Barred S (gatePool ⟨s', p.threads.set i u'⟩) := by
  have hgate := getElem?_gatePool hi
  have hidle {q : Pool AdmissionGate Call} {t : Call} (hq : Barred S q)
      (hit : q.threads[i]? = some t) (hu' : Idle u'.inner) :
      Barred S ⟨q.shared, q.threads.set i u'.inner⟩ := by
    refine ⟨hq.state, fun j hS v hv => ?_⟩
    rcases (getElem?_set_iff hit).mp hv with ⟨rfl, rfl⟩ | ⟨-, hv⟩
    · exact hu'.passed
    · exact hq.unpassed j hS v hv
  rw [gatePool_set]
  rcases gate_of_next hn (hinv.sound u (List.mem_of_getElem? hi)) with
    ⟨e', t', ht, hinner | ⟨-, hinner⟩⟩ | ⟨hsame, hinner | ⟨-, hinner⟩⟩
  · rw [hinner]
    exact AdmissionGate.barred_next h hgate ht
  · have hstep := AdmissionGate.barred_next h hgate ht
    have := hidle hstep ((getElem?_set_iff hgate).mpr (.inl ⟨rfl, rfl⟩)) hinner
    rwa [List.set_set] at this
  · obtain ⟨hlt, heq⟩ := List.getElem?_eq_some_iff.mp hgate
    rw [hsame, hinner, ← heq, List.set_getElem_self]
    exact h
  · rw [hsame]
    exact hidle h hgate hinner

end Pool

/-- A call that is barred at the gate stays so. -/
theorem barred_run {S : Nat → Prop} {es : List (Event Kind Action)}
    (h : Barred S (gatePool ((entrance side limit capacity).run es)))
    (later : List (Event Kind Action)) :
    Barred S (gatePool ((entrance side limit capacity).run (es ++ later))) :=
  (entrance side limit capacity).stable (I := fun p => Barred S (gatePool p)) inv_run
    (fun _ kind _ h => barred_spawn kind h)
    (fun _ _ _ _ _ _ hinv h hi hn => barred_next hinv h hi hn) h later

/-! ## Bounded admission -/

/-- A step that a call can take is taken. -/
theorem getElem?_step {p : Pool Entrance Entrant} {i : Nat} {u u' : Entrant} {s' : Entrance}
    {e : Action} (hi : p.threads[i]? = some u) (hn : next side p.shared u e = some (s', u')) :
    ((entrance side limit capacity).step p (.act i e)).threads[i]? = some u' := by
  have hn : (entrance side limit capacity).next p.shared u e = some (s', u') := hn
  simp only [Threads.step, hi, hn]
  exact (getElem?_set_iff hi).mpr (.inl ⟨rfl, rfl⟩)

/-- A call that finds the gate full is turned away exactly when all places are taken. -/
theorem queueFull_iff {es : List (Event Kind Action)} {i : Nat}
    (hi : ((entrance side limit capacity).run es).threads[i]? = some .queueing) :
    ((entrance side limit capacity).run (es ++ [.act i .run])).threads[i]? =
        some (.refused side.queueFull) ↔
      total Entrant.place ((entrance side limit capacity).run es).threads = placesOf capacity := by
  have hinv : Inv side limit capacity ((entrance side limit capacity).run es) := inv_run es
  rw [Threads.run_concat]
  generalize (entrance side limit capacity).run es = p at hi hinv
  have hplaces := hinv.places
  have hqueue : p.shared.places.isSome = true :=
    hinv.queue.trans (hinv.sound .queueing (List.mem_of_getElem? hi))
  obtain ⟨places, hs⟩ := Option.isSome_iff_exists.mp hqueue
  have hfree : p.shared.free = places.available := by
    unfold free
    rw [hs]
    rfl
  by_cases hpos : 0 < places.available
  · have hacquire : places.tryAcquire = some { places with available := places.available - 1 } :=
      Semaphore.tryAcquire_eq_some_iff.mpr ⟨hinv.opened places hs, hpos, rfl⟩
    have hn : next side p.shared .queueing .run = some ({ p.shared with
        places := some { places with available := places.available - 1 } }, .waiting .enter) := by
      simp only [next, hs, Option.bind_some, hacquire]
    rw [getElem?_step hi hn]
    exact iff_of_false nofun (by omega)
  · have hacquire : places.tryAcquire = none := by
      unfold Semaphore.tryAcquire
      rw [if_neg fun h => hpos h.2]
    have hn : next side p.shared .queueing .run = some (p.shared, .refused side.queueFull) := by
      simp only [next, hs, Option.bind_some, hacquire]
    rw [getElem?_step hi hn]
    exact iff_of_true rfl (by omega)

def runsOf (i n : Nat) : List (Event Kind Action) := List.replicate n (.act i .run)

/-- One call is inside and one waits when a third finds the gate full; then draining begins. -/
def crowd : List (Event Kind Action) :=
  [.spawn .acquireAdmission, .spawn .acquireAdmission, .spawn .acquireAdmission] ++ runsOf 0 5 ++
    runsOf 1 5 ++ runsOf 2 3 ++ [.spawn .beginDraining] ++ runsOf 3 1

/-- The steps that `try_enter` or `enter` still takes. -/
def callLeft : Call → Nat
  | .tryEnter | .enter => 8
  | .tryAcquire | .acquire | .assigned => 7
  | .count => 6
  | .recheck => 5
  | .refused => 4
  | .releaseNotify _ => 3
  | .dropPermit _ => 2
  | .admitted | .nameError => 1
  | _ => 0

section

variable {g g' : AdmissionGate} {t t' : Call}

theorem callLeft_of_next (h : g.next t .run = some (g', t'))
    (ht : Entrant.viaTry t = true ∨ Entrant.viaEnter t = true) : callLeft t' < callLeft t := by
  cases AdmissionGate.step_of_next h with
  | releaseLast hr | releaseOther hr =>
    rcases hr with rfl | rfl
    · rcases ht with ht | ht <;> cases ht
    · simp [callLeft]
  | beginDraining | beginDrainingLate | close | closePermits | closeNotify | drained
  | loadActiveNone | loadActive | parked => rcases ht with ht | ht <;> cases ht
  | _ => simp [callLeft]

/-- `try_enter` waits for nobody. -/
theorem next_of_viaTry (g : AdmissionGate) (ht : Entrant.viaTry t = true) :
    (g.next t .run).isSome = true := by
  cases t with
  | tryEnter | nameError | recheck =>
    by_cases hstate : g.state = .running <;> simp [AdmissionGate.next, hstate]
  | tryAcquire =>
    cases hacquire : g.permits.tryAcquire <;> simp [AdmissionGate.next, hacquire]
  | count | admitted | refused | releaseNotify r | dropPermit r => rfl
  | _ => cases ht

/-- `enter` waits for nobody either, but for a permit. -/
theorem next_of_viaEnter (g : AdmissionGate) (ht : Entrant.viaEnter t = true) (hne : t ≠ .acquire) :
    (g.next t .run).isSome = true := by
  cases t with
  | enter | recheck =>
    by_cases hstate : g.state = .running <;> simp [AdmissionGate.next, hstate]
  | assigned =>
    by_cases hclosed : g.permits.closed = true <;> simp [AdmissionGate.next, hclosed]
  | count | admitted | refused | releaseNotify r | dropPermit r => rfl
  | acquire => exact absurd rfl hne
  | _ => cases ht

end

namespace Entrant

/-- The steps that `acquire_admission` still takes. -/
def stepsLeft : Entrant → Nat
  | .trying t => 11 + callLeft t
  | .queueing => 11
  | .waiting t => 2 + callLeft t
  | .expired => 2
  | .leaving _ | .timedOut => 1
  | _ => 0

/-- The call is in `acquire_admission`. -/
def OnWay : Entrant → Prop
  | .trying _ | .queueing | .waiting _ | .leaving _ | .expired | .timedOut => True
  | _ => False

/-- `acquire_admission` has returned. -/
def Settled (u : Entrant) : Prop := u = .inside .guard ∨ ∃ r, u = .refused r

theorem stepsLeft_le (u : Entrant) : u.stepsLeft ≤ 19 := by
  have hcall (t : Call) : callLeft t ≤ 8 := by cases t <;> simp [callLeft]
  cases u with
  | trying t | waiting t =>
    have := hcall t
    simp only [stepsLeft]
    omega
  | _ => simp [stepsLeft]

end Entrant

/-- **A call on its way has a step of its own**, or the deadline of its wait, that takes it on. -/
theorem next_of_onWay (s : Entrance) {u : Entrant} {queue : Bool} (hu : u.Sound side queue)
    (hway : u.OnWay) : ∃ e s' u', (e = .run ∨ e = .expire) ∧ next side s u e = some (s', u') ∧
      (u'.Settled ∨ u'.OnWay ∧ u'.stepsLeft < u.stepsLeft) := by
  cases u with
  | trying t =>
    obtain ⟨⟨gate, t'⟩, hgate⟩ := Option.isSome_iff_exists.mp (next_of_viaTry s.gate hu)
    have hless := callLeft_of_next hgate (.inl hu)
    refine ⟨.run, _, _, .inl rfl, through_eq_some_iff.mpr ⟨gate, t', hgate, rfl, rfl⟩, ?_⟩
    rcases viaTry_of_next hgate hu with ht | rfl | ⟨error, rfl⟩
    · rw [tried_of_viaTry ht]
      exact .inr ⟨trivial, Nat.add_lt_add_left hless 11⟩
    · exact .inl (.inl rfl)
    · cases error with
      | draining => exact .inl (.inr ⟨_, rfl⟩)
      | overloaded =>
        unfold tried
        cases s.places.isSome with
        | true => exact .inr ⟨trivial, Nat.lt_add_of_pos_right (Nat.zero_lt_of_lt hless)⟩
        | false => exact .inl (.inr ⟨_, rfl⟩)
  | queueing =>
    cases hplaces : s.places.bind Semaphore.tryAcquire with
    | none =>
      have hn : next side s .queueing .run = some (s, .refused side.queueFull) := by
        simp only [next, hplaces]
      exact ⟨.run, _, _, .inl rfl, hn, .inl (.inr ⟨_, rfl⟩)⟩
    | some places =>
      have hn : next side s .queueing .run =
          some ({ s with places := some places }, .waiting .enter) := by
        simp only [next, hplaces]
      exact ⟨.run, _, _, .inl rfl, hn, .inr ⟨trivial, Nat.lt_succ_self 10⟩⟩
  | waiting t =>
    by_cases hacquire : t = .acquire
    · subst hacquire
      exact ⟨.expire, _, _, .inr rfl, rfl, .inr ⟨trivial, Nat.lt_add_of_pos_right (Nat.succ_pos 6)⟩⟩
    · obtain ⟨⟨gate, t'⟩, hgate⟩ :=
        Option.isSome_iff_exists.mp (next_of_viaEnter s.gate hu hacquire)
      have hless := callLeft_of_next hgate (.inr hu)
      refine ⟨.run, _, _, .inl rfl, through_eq_some_iff.mpr ⟨gate, t', hgate, rfl, rfl⟩, .inr ?_⟩
      rcases viaEnter_of_next hgate nofun hu with ht | rfl | rfl
      · rw [waited_of_viaEnter ht]
        exact ⟨trivial, Nat.add_lt_add_left hless 2⟩
      · exact ⟨trivial, Nat.lt_of_lt_of_le (Nat.lt_succ_self 1) (Nat.le_add_right 2 _)⟩
      · exact ⟨trivial, Nat.lt_of_lt_of_le (Nat.lt_succ_self 1) (Nat.le_add_right 2 _)⟩
  | leaving t =>
    rcases hu with rfl | rfl
    · exact ⟨.run, _, _, .inl rfl, rfl, .inl (.inl rfl)⟩
    · exact ⟨.run, _, _, .inl rfl, rfl, .inl (.inr ⟨_, rfl⟩)⟩
  | expired => exact ⟨.run, _, _, .inl rfl, rfl, .inr ⟨trivial, Nat.lt_succ_self 1⟩⟩
  | timedOut => exact ⟨.run, _, _, .inl rfl, rfl, .inl (.inr ⟨_, rfl⟩)⟩
  | _ => cases hway

/-- By induction on the steps that are left. -/
theorem settles_of_left {i n : Nat} {es : List (Event Kind Action)} {u : Entrant}
    (hi : ((entrance side limit capacity).run es).threads[i]? = some u) (hway : u.OnWay)
    (hn : u.stepsLeft ≤ n) : ∃ own : List Action, own.length ≤ n ∧
      (∀ e ∈ own, e = .run ∨ e = .expire) ∧
      ∃ u', ((entrance side limit capacity).run (es ++ own.map (.act i))).threads[i]? = some u' ∧
        u'.Settled := by
  induction n generalizing es u with
  | zero => cases u <;> simp [Entrant.stepsLeft] at hn <;> cases hway
  | succ n ih =>
    have hsound := (inv_run es).sound u (List.mem_of_getElem? hi)
    obtain ⟨e, s', u', he, hnext, hu'⟩ := next_of_onWay _ hsound hway
    have hi' : ((entrance side limit capacity).run (es ++ [.act i e])).threads[i]? = some u' := by
      rw [Threads.run_concat]
      exact getElem?_step hi hnext
    rcases hu' with hsettled | ⟨hway', hless⟩
    · exact ⟨[e], by simp, by simpa using he, u', hi', hsettled⟩
    · obtain ⟨own, hlength, hown, u'', hrun, hsettled⟩ := ih hi' hway' (by omega)
      refine ⟨e :: own, Nat.succ_le_succ hlength, ?_, u'', ?_, hsettled⟩
      · rintro a (_ | ⟨_, ha⟩)
        · exact he
        · exact hown a ha
      · rwa [List.map_cons, List.append_cons]

/-- **`acquire_admission` ends whoever holds the permits.**  In every reachable state a call on
its way is admitted or refused after at most 19 events of its own, steps or the deadline of
its wait. -/
theorem admission_ends (side : Side) (limit : PermitCount) (capacity : Option PermitCount)
    (es : List (Event Kind Action)) (i : Nat) (u : Entrant)
    (hi : ((entrance side limit capacity).run es).threads[i]? = some u) (hway : u.OnWay) :
    ∃ own : List Action, own.length ≤ 19 ∧ (∀ e ∈ own, e = .run ∨ e = .expire) ∧
      ∃ u', ((entrance side limit capacity).run (es ++ own.map (.act i))).threads[i]? = some u' ∧
        u'.Settled :=
  settles_of_left hi hway u.stepsLeft_le

theorem admission_ends_crowd : ∃ own : List Action, own.length ≤ 19 ∧
    (∀ e ∈ own, e = .run ∨ e = .expire) ∧
    ∃ u', ((entrance .client AdmissionGate.onePermit (some AdmissionGate.onePermit)).run
      (crowd ++ own.map (.act 1))).threads[1]? = some u' ∧ u'.Settled :=
  admission_ends .client AdmissionGate.onePermit (some AdmissionGate.onePermit) crowd 1
    (.waiting .acquire) (by decide +kernel) trivial

end Entrance

end Fusen.Runtime
