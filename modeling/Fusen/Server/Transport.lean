import Fusen.Runtime.Sync
import Fusen.Server.Shutdown

/-!
# The accept supervisor (`server/transport.rs`)

`Transport.poll` is one step of `run_inner` between two points where others can act: the
accept loop with its backoff, the closure of the listener, and the drain of the connections
and of the tasks that hyper spawns for their streams.

The spec lemma of the supervisor is `Transport.poll_cases`; what it keeps is `Transport.Inv`.
-/

namespace Fusen.Server

open Lib Fusen.Runtime

/-! ## Accept failures -/

/-- An error of `accept`: whether its kind is `Interrupted`, and its text. -/
structure IoError where
  interrupted : Bool
  message : Text
deriving DecidableEq

/-- The delay in milliseconds. -/
def acceptBackoff (consecutiveFailures : Nat) : Nat :=
  let exponent := min (consecutiveFailures - 1) 7
  min (10 * 2 ^ exponent) 1000

inductive AcceptFailureAction
  | retryImmediately
  | retryAfter (delay consecutiveFailures : Nat)
  | fatal
deriving DecidableEq, Repr

structure AcceptFailureTracker where
  consecutiveFailures : Nat
deriving DecidableEq, Repr

namespace AcceptFailureTracker

def recordSuccess (_ : AcceptFailureTracker) : AcceptFailureTracker := ⟨0⟩

/-- The count is a `u8` that saturates. -/
def recordFailure (tracker : AcceptFailureTracker) (interrupted : Bool) :
    AcceptFailureTracker × AcceptFailureAction :=
  if interrupted then (tracker, .retryImmediately)
  else
    let failures := min (tracker.consecutiveFailures + 1) 255
    if failures ≥ 16 then (⟨failures⟩, .fatal)
    else (⟨failures⟩, .retryAfter (acceptBackoff failures) failures)

end AcceptFailureTracker

/-! ## The supervisor -/

/-- A connection task: it serves, has ended and waits to be joined, or was told to abort. -/
inductive TaskState
  | serving | ended | joined | aborted
deriving DecidableEq, Repr

namespace TaskState

/-- The task is in the `JoinSet`. -/
def isMember : TaskState → Bool
  | serving | ended | aborted => true
  | joined => false

/-- The task has not dropped its permit. -/
def holds : TaskState → Nat
  | serving | aborted => 1
  | ended | joined => 0

def abort : TaskState → TaskState
  | serving => aborted
  | state => state

end TaskState

/-- Where `run_inner` stands; the error is its `fatal_error`. -/
inductive TransportPhase
  | accepting
  /-- The inner `select!`, which sleeps for that many milliseconds. -/
  | backoff (delay : Nat)
  /-- The loop has ended; the listener is dropped next. -/
  | closing (command : Bool) (fatalError : Option Text)
  | reporting (fatalError : Text)
  | awaitingCommand (fatalError : Text)
  | acknowledging (fatalError : Option Text)
  | draining (fatalError : Option Text)
  | drainingStreams (fatalError : Option Text)
  /-- No command, or no drain in time: everything is cancelled. -/
  | cancelling (fatalError : Option Text)
  | ended (outcome : AcceptOutcome)
  /-- The task was torn down without an outcome. -/
  | dead

structure Transport where
  phase : TransportPhase
  listening : Bool
  failures : AcceptFailureTracker
  connections : Semaphore
  tasks : List TaskState
  /-- The tasks of the executor that have not ended. -/
  streams : Nat
  /-- What is queued in the channel of fatal errors. -/
  fatal : Option Text
  acknowledged : Bool

/-- What the supervisor sees of the coordinator: a queued `DrainCommand`, a dropped sender,
the cancellation, and the clock behind the deadline. -/
structure Inbox where
  command : Bool
  disconnected : Bool
  forceCancel : Bool
  deadlineElapsed : Bool

/-- `drain.recv()`, if it is ready: whether there is a command. -/
def Inbox.recv (inbox : Inbox) : Option Bool :=
  if inbox.command then some true else if inbox.disconnected then some false else none

/-- What a poll of `accept` yields, or the end of a sleep. -/
inductive AcceptWake
  | idle
  | accepted
  | failed (e : IoError)
  | slept

namespace Transport

def new (maxConnections : PermitCount) : Transport where
  phase := .accepting
  listening := true
  failures := ⟨0⟩
  connections := .new maxConnections
  tasks := []
  streams := 0
  fatal := none
  acknowledged := false

/-- A socket that was accepted: it is dropped if there is no permit. -/
def accept (t : Transport) : Transport :=
  let t := { t with failures := t.failures.recordSuccess }
  match t.connections.tryAcquire with
  | none => t
  | some connections => { t with connections, tasks := t.tasks ++ [.serving] }

def acceptFailed (t : Transport) (e : IoError) : Transport :=
  match t.failures.recordFailure e.interrupted with
  | (failures, .retryImmediately) => { t with failures }
  | (failures, .fatal) => { t with failures, phase := .closing false (some e.message) }
  | (failures, .retryAfter delay _) => { t with failures, phase := .backoff delay }

/-- `join_next` of a task that has ended. -/
def joinNext (t : Transport) : Option Transport :=
  if .ended ∈ t.tasks then
    some { t with tasks := t.tasks.set (t.tasks.idxOf .ended) .joined }
  else none

/-- One step of the supervisor; the inbox loses a command that is received and is cancelled
if the supervisor cancels. -/
def poll (t : Transport) (inbox : Inbox) (wake : AcceptWake) : Transport × Inbox :=
  match t.phase with
  | .accepting =>
    match inbox.recv with
    | some command => ({ t with phase := .closing command none }, { inbox with command := false })
    | none =>
      match t.joinNext with
      | some t => (t, inbox)
      | none =>
        match wake with
        | .accepted => (t.accept, inbox)
        | .failed e => (t.acceptFailed e, inbox)
        | .idle | .slept => (t, inbox)
  | .backoff _ =>
    match inbox.recv with
    | some command => ({ t with phase := .closing command none }, { inbox with command := false })
    | none =>
      match wake with
      | .slept => ({ t with phase := .accepting }, inbox)
      | _ => (t, inbox)
  | .closing command fatalError =>
    ({ t with
        listening := false
        phase :=
          if command then .acknowledging fatalError
          else
            match fatalError with
            | some e => .reporting e
            | none => .cancelling none }, inbox)
  | .reporting e => ({ t with fatal := some e, phase := .awaitingCommand e }, inbox)
  | .awaitingCommand e =>
    match inbox.recv with
    | some true => ({ t with phase := .acknowledging (some e) }, { inbox with command := false })
    | some false => ({ t with phase := .cancelling (some e) }, inbox)
    | none => (t, inbox)
  | .acknowledging fatalError =>
    ({ t with acknowledged := true, phase := .draining fatalError }, inbox)
  | .draining fatalError =>
    if inbox.forceCancel then ({ t with phase := .cancelling fatalError }, inbox)
    else
      match t.joinNext with
      | some t => (t, inbox)
      | none =>
        if t.tasks.any TaskState.isMember = false then
          ({ t with phase := .drainingStreams fatalError }, inbox)
        else if inbox.deadlineElapsed then ({ t with phase := .cancelling fatalError }, inbox)
        else (t, inbox)
  | .drainingStreams fatalError =>
    if inbox.forceCancel then ({ t with phase := .cancelling fatalError }, inbox)
    else if t.streams = 0 then ({ t with phase := .ended ⟨fatalError, false⟩ }, inbox)
    else if inbox.deadlineElapsed then ({ t with phase := .cancelling fatalError }, inbox)
    else (t, inbox)
  | .cancelling fatalError =>
    ({ t with phase := .ended ⟨fatalError, true⟩, tasks := t.tasks.map TaskState.abort },
      { inbox with forceCancel := true })
  | .ended _ | .dead => (t, inbox)

/-- The task of the supervisor is dropped, and its `JoinSet` with it. -/
def die (t : Transport) : Transport :=
  match t.phase with
  | .ended _ => t
  | _ => { t with phase := .dead, listening := false, tasks := t.tasks.map TaskState.abort }

/-- The connection `i` ends, for whatever reason, and drops its permit. -/
def endConnection (t : Transport) (i : Nat) : Transport :=
  match t.tasks[i]? with
  | some .serving =>
    { t with tasks := t.tasks.set i .ended, connections := t.connections.release }
  | some .aborted =>
    { t with tasks := t.tasks.set i .joined, connections := t.connections.release }
  | _ => t

/-- The connection `i` has its executor run a stream. -/
def startStream (t : Transport) (i : Nat) : Transport :=
  match t.tasks[i]? with
  | some .serving | some .aborted => { t with streams := t.streams + 1 }
  | _ => t

def endStream (t : Transport) : Transport := { t with streams := t.streams - 1 }

/-- The receiver of `listener_closed`: whether it was acknowledged, if that is decided. -/
def listenerClosed (t : Transport) : Option Bool :=
  if t.acknowledged then some true
  else
    match t.phase with
    | .ended _ | .dead => some false
    | _ => none

/-- The receiver of the outcome. -/
def completion (t : Transport) : Option (Option AcceptOutcome) :=
  match t.phase with
  | .ended outcome => some (some outcome)
  | .dead => some none
  | _ => none

/-- `fatal_receiver.recv()`, if it is ready. -/
def recvFatal (t : Transport) : Option (Option Text) :=
  match t.fatal with
  | some e => some (some e)
  | none => t.completion.map fun _ => none

/-! ## The steps of the supervisor -/

/-- What a poll can do. -/
inductive Step (t : Transport) (inbox : Inbox) : Transport → Inbox → Prop
  | idle : Step t inbox t inbox
  | received {command : Bool} (hphase : t.phase = .accepting ∨ ∃ delay, t.phase = .backoff delay)
      (hrecv : inbox.recv = some command) :
    Step t inbox { t with phase := .closing command none } { inbox with command := false }
  | joined {i : Nat} (hphase : t.phase = .accepting ∨ ∃ fatalError, t.phase = .draining fatalError)
      (hi : t.tasks[i]? = some .ended) :
    Step t inbox { t with tasks := t.tasks.set i .joined } inbox
  | accepted {connections : Semaphore} (hphase : t.phase = .accepting)
      (hpermit : t.connections.tryAcquire = some connections) :
    Step t inbox { t with failures := ⟨0⟩, connections, tasks := t.tasks ++ [.serving] } inbox
  | full (hphase : t.phase = .accepting) (hpermit : t.connections.tryAcquire = none) :
    Step t inbox { t with failures := ⟨0⟩ } inbox
  | failed {failures delay : Nat} (hphase : t.phase = .accepting)
      (hcount : failures = min (t.failures.consecutiveFailures + 1) 255) (hlt : failures < 16) :
    Step t inbox { t with failures := ⟨failures⟩, phase := .backoff delay } inbox
  | failedFatally {failures : Nat} {e : Text} (hphase : t.phase = .accepting)
      (hcount : failures = min (t.failures.consecutiveFailures + 1) 255) (hle : 16 ≤ failures) :
    Step t inbox { t with failures := ⟨failures⟩, phase := .closing false (some e) } inbox
  | slept {delay : Nat} (hphase : t.phase = .backoff delay) :
    Step t inbox { t with phase := .accepting } inbox
  | closed {command : Bool} {fatalError : Option Text} {phase : TransportPhase}
      (hphase : t.phase = .closing command fatalError)
      (hnext : command = true ∧ phase = .acknowledging fatalError ∨
        command = false ∧ (fatalError = none ∧ phase = .cancelling none ∨
          ∃ e, fatalError = some e ∧ phase = .reporting e)) :
    Step t inbox { t with listening := false, phase } inbox
  | reported {e : Text} (hphase : t.phase = .reporting e) :
    Step t inbox { t with fatal := some e, phase := .awaitingCommand e } inbox
  | commanded {e : Text} (hphase : t.phase = .awaitingCommand e)
      (hrecv : inbox.recv = some true) :
    Step t inbox { t with phase := .acknowledging (some e) } { inbox with command := false }
  | disconnected {e : Text} (hphase : t.phase = .awaitingCommand e)
      (hrecv : inbox.recv = some false) :
    Step t inbox { t with phase := .cancelling (some e) } inbox
  | acknowledged {fatalError : Option Text} (hphase : t.phase = .acknowledging fatalError) :
    Step t inbox { t with acknowledged := true, phase := .draining fatalError } inbox
  | joinedAll {fatalError : Option Text} (hphase : t.phase = .draining fatalError)
      (hmembers : t.tasks.any TaskState.isMember = false) :
    Step t inbox { t with phase := .drainingStreams fatalError } inbox
  | late {fatalError : Option Text}
      (hphase : t.phase = .draining fatalError ∨ t.phase = .drainingStreams fatalError)
      (hlate : inbox.forceCancel = true ∨ inbox.deadlineElapsed = true) :
    Step t inbox { t with phase := .cancelling fatalError } inbox
  | drained {fatalError : Option Text} (hphase : t.phase = .drainingStreams fatalError)
      (hstreams : t.streams = 0) :
    Step t inbox { t with phase := .ended ⟨fatalError, false⟩ } inbox
  | cancelled {fatalError : Option Text} (hphase : t.phase = .cancelling fatalError) :
    Step t inbox
      { t with phase := .ended ⟨fatalError, true⟩, tasks := t.tasks.map TaskState.abort }
      { inbox with forceCancel := true }

section

variable {t t' : Transport} {inbox inbox' : Inbox} {wake : AcceptWake}

theorem joinNext_eq_some (h : t.joinNext = some t') :
    ∃ i, t.tasks[i]? = some .ended ∧ t' = { t with tasks := t.tasks.set i .joined } := by
  unfold joinNext at h
  split at h
  · rename_i hmem
    cases h
    refine ⟨t.tasks.idxOf .ended, ?_, rfl⟩
    rw [List.getElem?_eq_some_iff]
    exact ⟨List.idxOf_lt_length_of_mem hmem, List.getElem_idxOf _⟩
  · cases h

theorem step_accept (hphase : t.phase = .accepting) : Step t inbox t.accept inbox := by
  unfold accept
  dsimp only
  cases hpermit : t.connections.tryAcquire with
  | none => exact .full hphase hpermit
  | some connections => exact .accepted hphase hpermit

theorem step_acceptFailed (hphase : t.phase = .accepting) (e : IoError) :
    Step t inbox (t.acceptFailed e) inbox := by
  unfold acceptFailed AcceptFailureTracker.recordFailure
  cases e.interrupted with
  | true => exact .idle
  | false =>
    by_cases hle : min (t.failures.consecutiveFailures + 1) 255 ≥ 16
    · simp only [Bool.false_eq_true, if_false, hle, if_true]
      exact .failedFatally hphase rfl hle
    · simp only [Bool.false_eq_true, if_false, hle]
      exact .failed hphase rfl (Nat.lt_of_not_le hle)

/-- **Every poll is one of these.** -/
theorem poll_cases : Step t inbox (t.poll inbox wake).1 (t.poll inbox wake).2 := by
  unfold poll
  cases hphase : t.phase with
  | accepting =>
    dsimp only
    cases hrecv : inbox.recv with
    | some command => exact .received (.inl hphase) hrecv
    | none =>
      dsimp only
      cases hjoin : t.joinNext with
      | some t' =>
        obtain ⟨i, hi, rfl⟩ := joinNext_eq_some hjoin
        exact .joined (.inl hphase) hi
      | none =>
        cases wake with
        | accepted => exact step_accept hphase
        | failed e => exact step_acceptFailed hphase e
        | idle => exact .idle
        | slept => exact .idle
  | backoff delay =>
    dsimp only
    cases hrecv : inbox.recv with
    | some command => exact .received (.inr ⟨delay, hphase⟩) hrecv
    | none =>
      cases wake with
      | slept => exact .slept hphase
      | accepted => exact .idle
      | failed e => exact .idle
      | idle => exact .idle
  | closing command fatalError =>
    refine .closed hphase ?_
    cases command with
    | true => exact .inl ⟨rfl, rfl⟩
    | false =>
      cases fatalError with
      | none => exact .inr ⟨rfl, .inl ⟨rfl, rfl⟩⟩
      | some e => exact .inr ⟨rfl, .inr ⟨e, rfl, rfl⟩⟩
  | reporting e => exact .reported hphase
  | awaitingCommand e =>
    dsimp only
    cases hrecv : inbox.recv with
    | none => exact .idle
    | some command =>
      cases command with
      | true => exact .commanded hphase hrecv
      | false => exact .disconnected hphase hrecv
  | acknowledging fatalError => exact .acknowledged hphase
  | draining fatalError =>
    dsimp only
    by_cases hcancel : inbox.forceCancel = true
    · rw [if_pos hcancel]
      exact .late (.inl hphase) (.inl hcancel)
    · rw [if_neg hcancel]
      cases hjoin : t.joinNext with
      | some t' =>
        obtain ⟨i, hi, rfl⟩ := joinNext_eq_some hjoin
        exact .joined (.inr ⟨fatalError, hphase⟩) hi
      | none =>
        dsimp only
        by_cases hmembers : t.tasks.any TaskState.isMember = false
        · rw [if_pos hmembers]
          exact .joinedAll hphase hmembers
        · rw [if_neg hmembers]
          by_cases hlate : inbox.deadlineElapsed = true
          · rw [if_pos hlate]
            exact .late (.inl hphase) (.inr hlate)
          · rw [if_neg hlate]
            exact .idle
  | drainingStreams fatalError =>
    dsimp only
    by_cases hcancel : inbox.forceCancel = true
    · rw [if_pos hcancel]
      exact .late (.inr hphase) (.inl hcancel)
    · rw [if_neg hcancel]
      by_cases hstreams : t.streams = 0
      · rw [if_pos hstreams]
        exact .drained hphase hstreams
      · rw [if_neg hstreams]
        by_cases hlate : inbox.deadlineElapsed = true
        · rw [if_pos hlate]
          exact .late (.inr hphase) (.inr hlate)
        · rw [if_neg hlate]
          exact .idle
  | cancelling fatalError => exact .cancelled hphase
  | ended outcome => exact .idle
  | dead => exact .idle

end

/-! ## What the supervisor keeps -/

end Transport

namespace TransportPhase

/-- The listener is not dropped yet. -/
def isOpen : TransportPhase → Bool
  | accepting | backoff _ | closing .. => true
  | _ => false

/-- The connections have drained. -/
def isDrained : TransportPhase → Bool
  | drainingStreams _ | ended ⟨_, false⟩ => true
  | _ => false

/-- The closure of the listener has been acknowledged. -/
def isAcknowledged : TransportPhase → Bool
  | draining _ | drainingStreams _ | ended ⟨_, false⟩ => true
  | _ => false

theorem isAcknowledged_of_isDrained {phase : TransportPhase} (h : phase.isDrained = true) :
    phase.isAcknowledged = true := by
  cases phase with
  | drainingStreams => rfl
  | ended outcome =>
    obtain ⟨fatalError, exceeded⟩ := outcome
    cases exceeded with
    | true => cases h
    | false => rfl
  | _ => cases h

end TransportPhase

namespace Transport

/-- The permits add up, the listener is open in the loop only, it is closed before that is
acknowledged, and a drain that is over has left nothing. -/
structure Inv (limit : PermitCount) (t : Transport) : Prop where
  permits : t.connections.available + total TaskState.holds t.tasks = limit.count
  listening : t.listening = t.phase.isOpen
  drained : t.phase.isDrained = true → t.tasks.any TaskState.isMember = false
  streams : ∀ fatalError, t.phase = .ended ⟨fatalError, false⟩ → t.streams = 0
  acknowledged : t.phase.isAcknowledged = true → t.acknowledged = true
  closed : t.acknowledged = true → t.phase.isOpen = false

section

variable {limit : PermitCount} {t t' : Transport} {inbox inbox' : Inbox}

theorem holds_abort (state : TaskState) : state.abort.holds = state.holds := by
  cases state <;> rfl

theorem total_abort (tasks : List TaskState) :
    total TaskState.holds (tasks.map TaskState.abort) = total TaskState.holds tasks := by
  unfold total
  rw [List.map_map]
  exact congrArg List.sum (List.map_congr_left fun state _ => holds_abort state)

theorem Inv.new (limit : PermitCount) : Inv limit (.new limit) where
  permits := rfl
  listening := rfl
  drained := by
    rintro ⟨⟩
  streams := by
    rintro _ ⟨⟩
  acknowledged := by
    rintro ⟨⟩
  closed := by
    rintro ⟨⟩

/-- A step that changes the phase alone, or the listener with it, and ends no drain. -/
theorem Inv.move {phase : TransportPhase} {listening : Bool} {fatal : Option Text}
    {failures : AcceptFailureTracker} (h : Inv limit t) (hopen : listening = phase.isOpen)
    (hstay : t.acknowledged = true → phase.isOpen = false)
    (hdrained : phase.isDrained = true → t.tasks.any TaskState.isMember = false)
    (hstreams : ∀ fatalError, phase = .ended ⟨fatalError, false⟩ → t.streams = 0)
    (hack : phase.isAcknowledged = true → t.acknowledged = true) :
    Inv limit { t with phase, listening, fatal, failures } :=
  ⟨h.permits, hopen, hdrained, hstreams, hack, hstay⟩

/-- The same for a phase in which nothing is acknowledged yet. -/
theorem Inv.moveOn {phase : TransportPhase} {listening : Bool} {fatal : Option Text}
    {failures : AcceptFailureTracker} (h : Inv limit t) (hopen : listening = phase.isOpen)
    (hstay : phase.isOpen = false ∨ t.phase.isOpen = true)
    (hack : phase.isAcknowledged = false) :
    Inv limit { t with phase, listening, fatal, failures } := by
  have hdrained : phase.isDrained ≠ true := fun hd => by
    rw [TransportPhase.isAcknowledged_of_isDrained hd] at hack
    cases hack
  refine h.move hopen (fun hacked => hstay.resolve_right fun hopen => ?_) (absurd · hdrained) ?_ ?_
  · rw [h.closed hacked] at hopen
    cases hopen
  · rintro fatalError rfl
    exact absurd rfl hdrained
  · intro h
    rw [hack] at h
    cases h

theorem Inv.accept {connections : Semaphore} (h : Inv limit t) (hphase : t.phase = .accepting)
    (hpermit : t.connections.tryAcquire = some connections) (failures : AcceptFailureTracker) :
    Inv limit { t with failures, connections, tasks := t.tasks ++ [.serving] } := by
  constructor
  · show connections.available + total TaskState.holds (t.tasks ++ [.serving]) = limit.count
    rw [total_concat, ← h.permits, ← Semaphore.available_of_tryAcquire hpermit]
    show _ + (_ + 1) = _ + 1 + _
    omega
  · exact h.listening
  · intro hdrained
    rw [show _ = t.phase from rfl, hphase] at hdrained
    cases hdrained
  · exact h.streams
  · exact h.acknowledged
  · exact h.closed

/-- One task moves on. -/
theorem Inv.set {i : Nat} {state state' : TaskState} {connections : Semaphore} (h : Inv limit t)
    (hi : t.tasks[i]? = some state) (hmember : state.isMember = true)
    (hpermits : connections.available + state'.holds = t.connections.available + state.holds) :
    Inv limit { t with tasks := t.tasks.set i state', connections } := by
  constructor
  · have hset := total_set TaskState.holds hi state'
    have hsum := h.permits
    show connections.available + total TaskState.holds (t.tasks.set i state') = limit.count
    omega
  · exact h.listening
  · intro hdrained
    have hnone := h.drained hdrained
    rw [List.any_eq_false] at hnone
    exact absurd hmember (hnone state (List.mem_of_getElem? hi))
  · exact h.streams
  · exact h.acknowledged
  · exact h.closed

/-- **Every poll keeps it.** -/
theorem Inv.step (h : Inv limit t) (hstep : Step t inbox t' inbox') : Inv limit t' := by
  cases hstep with
  | idle => exact h
  | received hphase =>
    have hopen : t.phase.isOpen = true := by
      rcases hphase with hphase | ⟨delay, hphase⟩ <;> rw [hphase] <;> rfl
    exact h.moveOn (h.listening.trans hopen) (.inr hopen) rfl
  | joined hphase hi => exact h.set hi rfl rfl
  | accepted hphase hpermit => exact h.accept hphase hpermit _
  | full hphase => exact h.move h.listening h.closed h.drained h.streams h.acknowledged
  | failed hphase | failedFatally hphase | slept hphase =>
    have hopen : t.phase.isOpen = true := by
      rw [hphase]
      rfl
    exact h.moveOn (h.listening.trans hopen) (.inr hopen) rfl
  | closed hphase hnext =>
    rcases hnext with ⟨-, rfl⟩ | ⟨-, ⟨-, rfl⟩ | ⟨e, -, rfl⟩⟩
    · exact h.moveOn rfl (.inl rfl) rfl
    · exact h.moveOn rfl (.inl rfl) rfl
    · exact h.moveOn rfl (.inl rfl) rfl
  | reported hphase | commanded hphase | disconnected hphase =>
    exact h.moveOn (by rw [h.listening, hphase]; rfl) (.inl rfl) rfl
  | acknowledged hphase =>
    refine ⟨h.permits, h.listening.trans (by rw [hphase]; rfl), ?_, ?_, fun _ => rfl, fun _ => rfl⟩
    · rintro ⟨⟩
    · rintro _ ⟨⟩
  | joinedAll hphase hmembers =>
    refine h.move (by rw [h.listening, hphase]; rfl) (fun _ => rfl) (fun _ => hmembers) ?_ ?_
    · rintro _ ⟨⟩
    · exact fun _ => h.acknowledged (by rw [hphase]; rfl)
  | late hphase =>
    refine h.moveOn ?_ (.inl rfl) rfl
    rcases hphase with hphase | hphase <;> rw [h.listening, hphase] <;> rfl
  | drained hphase hstreams =>
    refine h.move (by rw [h.listening, hphase]; rfl) (fun _ => rfl) ?_ (fun _ _ => hstreams) ?_
    · exact fun _ => h.drained (by rw [hphase]; rfl)
    · exact fun _ => h.acknowledged (by rw [hphase]; rfl)
  | cancelled hphase =>
    refine ⟨?_, h.listening.trans (by rw [hphase]; rfl), ?_, ?_, ?_, fun _ => rfl⟩
    · exact (congrArg (_ + ·) (total_abort _)).trans h.permits
    · rintro ⟨⟩
    · rintro _ ⟨⟩
    · rintro ⟨⟩

theorem Inv.die (h : Inv limit t) : Inv limit t.die := by
  have hdead : Inv limit { t with
      phase := .dead, listening := false, tasks := t.tasks.map TaskState.abort } := by
    refine ⟨(congrArg (_ + ·) (total_abort _)).trans h.permits, rfl, ?_, ?_, ?_, fun _ => rfl⟩
    · rintro ⟨⟩
    · rintro _ ⟨⟩
    · rintro ⟨⟩
  unfold Transport.die
  split
  · exact h
  · exact hdead

theorem Inv.endConnection (h : Inv limit t) (i : Nat) : Inv limit (t.endConnection i) := by
  unfold Transport.endConnection
  split
  · rename_i hi
    exact h.set hi rfl rfl
  · rename_i hi
    exact h.set hi rfl rfl
  · exact h

theorem Inv.startStream (h : Inv limit t) (i : Nat) : Inv limit (t.startStream i) := by
  have hmember : ∀ state, t.tasks[i]? = some state → state.isMember = true →
      Inv limit { t with streams := t.streams + 1 } := by
    intro state hi hstate
    refine ⟨h.permits, h.listening, h.drained, fun fatalError hphase => ?_, h.acknowledged, h.closed⟩
    -- no task is left that could start one
    have hnone := h.drained (by rw [hphase]; rfl)
    rw [List.any_eq_false] at hnone
    exact absurd hstate (hnone state (List.mem_of_getElem? hi))
  unfold Transport.startStream
  split
  · rename_i hi
    exact hmember _ hi rfl
  · rename_i hi
    exact hmember _ hi rfl
  · exact h

theorem Inv.endStream (h : Inv limit t) : Inv limit t.endStream :=
  ⟨h.permits, h.listening, h.drained, fun fatalError hphase => by
    show t.streams - 1 = 0
    rw [h.streams fatalError hphase], h.acknowledged, h.closed⟩

/-- There are never more connections than permits. -/
theorem Inv.serving_le (h : Inv limit t) : t.tasks.count .serving ≤ limit.count := by
  have hcount : t.tasks.count .serving ≤ total TaskState.holds t.tasks := by
    induction t.tasks with
    | nil => exact Nat.le_refl 0
    | cons state tasks ih =>
      rw [List.count_cons]
      show _ ≤ state.holds + total TaskState.holds tasks
      cases state <;> simp [TaskState.holds] <;> omega
  have := h.permits
  omega

/-! ## What the coordinator learns -/

/-- An outcome stays. -/
theorem completion_of_step (hstep : Step t inbox t' inbox') {outcome : Option AcceptOutcome}
    (h : t.completion = some outcome) : t'.completion = some outcome := by
  unfold completion at h
  cases hstep with
  | idle => exact h
  | full | accepted => exact h
  | joined => exact h
  | received hphase =>
    rcases hphase with hphase | ⟨delay, hphase⟩ <;> rw [hphase] at h <;> cases h
  | late hphase => rcases hphase with hphase | hphase <;> rw [hphase] at h <;> cases h
  | failed hphase | failedFatally hphase | slept hphase | closed hphase | reported hphase
  | commanded hphase | disconnected hphase | acknowledged hphase | joinedAll hphase
  | drained hphase | cancelled hphase =>
    rw [hphase] at h
    cases h

/-- A listener that is closed stays closed, and no connection is added. -/
theorem closed_of_step (h : Inv limit t) (hstep : Step t inbox t' inbox')
    (hclosed : t.listening = false) : t'.listening = false ∧ t'.tasks.length = t.tasks.length := by
  cases hstep with
  | accepted hphase =>
    rw [h.listening, hphase] at hclosed
    cases hclosed
  | closed => exact ⟨rfl, rfl⟩
  | joined hphase hi => exact ⟨hclosed, List.length_set⟩
  | cancelled hphase => exact ⟨hclosed, List.length_map _⟩
  | _ => exact ⟨hclosed, rfl⟩

/-- The receiver of `listener_closed` learns of a closed listener. -/
theorem Inv.not_listening_of_closed (h : Inv limit t) {acknowledged : Bool}
    (hclosed : t.listenerClosed = some acknowledged) :
    t.listening = false ∧ t.acknowledged = acknowledged := by
  unfold listenerClosed at hclosed
  rw [h.listening]
  by_cases hack : t.acknowledged = true
  · rw [if_pos hack] at hclosed
    cases hclosed
    exact ⟨h.closed hack, hack⟩
  · rw [if_neg hack] at hclosed
    split at hclosed
    · rename_i hphase
      cases hclosed
      exact ⟨by rw [hphase]; rfl, Bool.eq_false_iff.mpr hack⟩
    · rename_i hphase
      cases hclosed
      exact ⟨by rw [hphase]; rfl, Bool.eq_false_iff.mpr hack⟩
    · cases hclosed

end

end Transport

end Fusen.Server
