import Fusen.Lib.Timed
import Fusen.Register.LifecycleSafe

/-!
# Server shutdown (`server/mod.rs`)

`drainRuntime` closes the registrations in reverse order, batch by batch, while the
requests and the connections drain, all under one deadline.  Its inputs are when and with
what the listener, the requests, the accept supervisor and each close end.
`drainRuntime_kind` says which error comes out.

A time is a number: `Instant::now() + timeout` is taken to be representable, for the shutdown
and for each close, as it panics otherwise.
-/

namespace Fusen.Server

open Lib Register

/-! ## Errors and configuration -/

inductive ServerErrorKind
  | validation | bind | startup | accept | registry | timeout | shutdown
deriving DecidableEq, Repr

/-- What an error retains: an I/O error, a channel that was dropped or a registry's error. -/
inductive ErrorSource
  | io (message : Text) | dropped | registry (e : RegistryError)
deriving DecidableEq

structure ServerError where
  kind : ServerErrorKind
  message : Text
  source : Option ErrorSource
deriving DecidableEq

def ServerError.fromMessage (kind : ServerErrorKind) (message : String) : ServerError :=
  ⟨kind, message.toList, none⟩

def ServerError.withSource (kind : ServerErrorKind) (message : String) (source : ErrorSource) :
    ServerError :=
  ⟨kind, message.toList, some source⟩

/-- The limits of `ServerRegistryConfig` that a shutdown reads. -/
structure ServerRegistryConfig where
  operationTimeout : Nat
  maxConcurrentOperations : Nat
  operationTimeout_pos : 0 < operationTimeout
  maxConcurrentOperations_pos : 0 < maxConcurrentOperations

structure ServerConfig where
  gracefulShutdownTimeout : Nat
  registry : ServerRegistryConfig
  gracefulShutdownTimeout_pos : 0 < gracefulShutdownTimeout

/-! ## Closing the registrations -/

/-- `close` is what becomes of `handle.close()`, timed from its first poll. -/
structure TrackedRegistration where
  close : Timed RegistryResult

structure CloseOutcome where
  timedOut : Bool
  firstError : Option RegistryError
deriving DecidableEq

def CloseOutcome.record (outcome : CloseOutcome) : Option RegistryResult → CloseOutcome
  | some .ok => outcome
  | some (.err e) => { outcome with firstError := outcome.firstError.or (some e) }
  | none => { outcome with timedOut := true }

section

variable (deadline operationTimeout : Nat)

/-- One close of a batch that begins at `now`. -/
def closeOne (now : Nat) (tracked : TrackedRegistration) : Nat × Option RegistryResult :=
  (tracked.close.startedAt now).timeoutAt (min deadline (now + operationTimeout))

/-- The loop over the batches: when it ends, and with what. -/
def closeBatches (now : Nat) (outcome : CloseOutcome) :
    List (List TrackedRegistration) → Nat × CloseOutcome
  | [] => (now, outcome)
  | batch :: batches =>
    if deadline ≤ now then (now, { outcome with timedOut := true })
    else
      let results := batch.map (closeOne deadline operationTimeout now)
      closeBatches ((results.map Prod.fst).foldl max now)
        ((results.map Prod.snd).foldl CloseOutcome.record outcome) batches

def closeRegistrations (tracked : List TrackedRegistration) (concurrency now : Nat) :
    Nat × CloseOutcome :=
  closeBatches deadline operationTimeout now ⟨false, none⟩ (tracked.reverse.toChunks concurrency)

end

/-! ## The result -/

structure AcceptOutcome where
  fatalError : Option Text
  deadlineExceeded : Bool

def deadlineElapsed : ServerError :=
  .fromMessage .timeout "server graceful shutdown deadline elapsed"

def resolveShutdownResult (registry : CloseOutcome) (accept : Except ServerError AcceptOutcome)
    (fatal : Option Text) (listenerError : Option ServerError) : Except ServerError Unit :=
  let (acceptDeadlineExceeded, outcomeFatal, completionError) :=
    match accept with
    | .ok accept => (accept.deadlineExceeded, accept.fatalError, none)
    | .error error => (false, none, some error)
  if registry.timedOut || acceptDeadlineExceeded then .error deadlineElapsed
  else
    match fatal.or outcomeFatal with
    | some error =>
      .error (.withSource .accept "HTTP server reached a fatal accept failure" (.io error))
    | none =>
      match listenerError with
      | some error => .error error
      | none =>
        match completionError with
        | some error => .error error
        | none =>
          match registry.firstError with
          | some error =>
            .error (.withSource .registry "one or more service deregistrations failed"
              (.registry error))
          | none => .ok ()

/-- When and how the other parties end: whether the listener's closure is acknowledged or
the sender dropped, the requests in flight, and the outcome of the accept supervisor, which
is lost if that ends without one. -/
structure Drains where
  listenerClosed : Timed Bool
  requests : Timed Unit
  accept : Timed (Option AcceptOutcome)

def publishDrainingAfterListenerClosed (acknowledged : Bool) : Option ServerError :=
  if acknowledged then none
  else some (.withSource .accept
    "HTTP accept supervisor ended before confirming listener closure" .dropped)

def acceptCompletion : Option AcceptOutcome → Except ServerError AcceptOutcome
  | some outcome => .ok outcome
  | none =>
    .error (.withSource .accept "HTTP accept supervisor ended without an outcome" .dropped)

/-- The `work` of `drain_runtime`: the error of the listener, the outcome of the closes and
that of the accept supervisor. -/
def drainWork (config : ServerConfig) (tracked : List TrackedRegistration) (drains : Drains)
    (deadline : Nat) : Timed (Option ServerError × CloseOutcome × Unit × Option AcceptOutcome) :=
  drains.listenerClosed.andThen fun closed acknowledged =>
    (Timed.join (some (closeRegistrations deadline config.registry.operationTimeout tracked
        config.registry.maxConcurrentOperations closed))
      (drains.requests.join drains.accept)).mapValue fun x =>
        (publishDrainingAfterListenerClosed acknowledged, x)

/-- `drain_runtime`, which begins at `now`. -/
def drainRuntime (config : ServerConfig) (tracked : List TrackedRegistration) (drains : Drains)
    (fatal : Option Text) (now : Nat) : Except ServerError Unit :=
  let deadline := now + config.gracefulShutdownTimeout
  match ((drainWork config tracked drains deadline).timeoutAt deadline).2 with
  | none => .error deadlineElapsed
  | some (listenerError, registry, _, accept) =>
    resolveShutdownResult registry (acceptCompletion accept) fatal listenerError

/-! ## The close outcomes -/

/-- The error of a close that fails in time. -/
def closeError : Option RegistryResult → Option RegistryError
  | some (.err e) => some e
  | some .ok | none => none

theorem isSome_closeError {result : Option RegistryResult} :
    (closeError result).isSome = true ↔ ∃ e, result = some (.err e) := by
  cases result with
  | none => simp [closeError]
  | some r => cases r <;> simp [closeError]

theorem foldl_record (results : List (Option RegistryResult)) (outcome : CloseOutcome) :
    results.foldl CloseOutcome.record outcome =
      ⟨outcome.timedOut || results.any Option.isNone,
        outcome.firstError.or (results.findSome? closeError)⟩ := by
  induction results generalizing outcome with
  | nil => rw [List.foldl_nil, List.any_nil, Bool.or_false, List.findSome?_nil, Option.or_none]
  | cons result results ih =>
    rw [List.foldl_cons, ih, List.any_cons, List.findSome?_cons, ← Bool.or_assoc]
    cases result with
    | none => simp [CloseOutcome.record, closeError]
    | some r =>
      cases r with
      | ok => simp [CloseOutcome.record, closeError]
      | err e => simp [CloseOutcome.record, closeError]

theorem flatten_toChunks_go {α : Type} (n : Nat) (l : List α) (chunk : Array α)
    (chunks : Array (List α)) :
    (List.toChunks.go n l chunk chunks).flatten = chunks.toList.flatten ++ chunk.toList ++ l := by
  induction l generalizing chunk chunks with
  | nil => simp [List.toChunks.go]
  | cons x l ih =>
    unfold List.toChunks.go
    split
    · rw [ih]
      simp
    · rw [ih]
      simp

theorem flatten_toChunks {α : Type} (n : Nat) (l : List α) : (l.toChunks n).flatten = l := by
  unfold List.toChunks
  split
  · rfl
  · simp
  · rw [flatten_toChunks_go]
    rfl

/-! ## The schedule without the deadline -/

section

variable (operationTimeout : Nat)

namespace TrackedRegistration

/-- How long the close keeps its batch, if only its own timeout ends it. -/
def busy (tracked : TrackedRegistration) : Nat := (tracked.close.timeoutAt operationTimeout).1

def Exceeds (tracked : TrackedRegistration) : Prop :=
  tracked.close.doneBy operationTimeout = none

def Fails (tracked : TrackedRegistration) : Prop :=
  ∃ e, tracked.close.doneBy operationTimeout = some (.err e)

end TrackedRegistration

def batchEnd (now : Nat) (batch : List TrackedRegistration) : Nat :=
  (batch.map fun tracked => now + tracked.busy operationTimeout).foldl max now

/-- A batch would begin at the deadline or later, or the last one would end after it. -/
def ClosesLate (deadline now : Nat) : List (List TrackedRegistration) → Prop
  | [] => deadline < now
  | batch :: batches =>
    deadline ≤ now ∨ ClosesLate deadline (batchEnd operationTimeout now batch) batches

instance decidableClosesLate (deadline : Nat) :
    ∀ now batches, Decidable (ClosesLate operationTimeout deadline now batches)
  | now, [] => inferInstanceAs (Decidable (deadline < now))
  | now, batch :: batches =>
    have := decidableClosesLate deadline (batchEnd operationTimeout now batch) batches
    inferInstanceAs (Decidable (_ ∨ _))

end

section

variable {deadline operationTimeout now : Nat} {tracked : TrackedRegistration}

theorem foldl_max_le_iff {l : List Nat} {a b : Nat} :
    l.foldl max a ≤ b ↔ a ≤ b ∧ ∀ x ∈ l, x ≤ b := by
  induction l generalizing a with
  | nil => simp
  | cons x l ih =>
    rw [List.foldl_cons, ih, Nat.max_le, List.forall_mem_cons, and_assoc]

theorem closeOne_of_le (h : now + tracked.busy operationTimeout ≤ deadline) :
    closeOne deadline operationTimeout now tracked =
      (now + tracked.busy operationTimeout, tracked.close.doneBy operationTimeout) := by
  have hbounded := Timed.timeoutAt_startedAt tracked.close now operationTimeout
  unfold closeOne
  rw [Timed.timeoutAt_min (by rw [hbounded]; exact h), hbounded]
  rfl

theorem closeOne_of_lt (h : deadline < now + tracked.busy operationTimeout) :
    closeOne deadline operationTimeout now tracked = (deadline, none) := by
  have hbounded := Timed.timeoutAt_startedAt tracked.close now operationTimeout
  unfold closeOne
  exact Timed.timeoutAt_min_of_lt (by rw [hbounded]; exact h)

/-- A batch that ends by the deadline runs as it would without. -/
theorem map_closeOne {batch : List TrackedRegistration}
    (h : batchEnd operationTimeout now batch ≤ deadline) :
    batch.map (closeOne deadline operationTimeout now) = batch.map fun tracked =>
      (now + tracked.busy operationTimeout, tracked.close.doneBy operationTimeout) := by
  refine List.map_congr_left fun tracked ht => closeOne_of_le ?_
  exact (foldl_max_le_iff.mp h).2 _ (List.mem_map_of_mem ht)

theorem batchEnd_le_of_not_late {batches : List (List TrackedRegistration)}
    (h : ¬ ClosesLate operationTimeout deadline now batches) : now ≤ deadline := by
  cases batches with
  | nil => exact Nat.le_of_not_lt h
  | cons batch batches => exact Nat.le_of_lt (Nat.lt_of_not_le fun hle => h (.inl hle))

theorem closeBatches_of_not_late {batches : List (List TrackedRegistration)}
    {outcome : CloseOutcome} (h : ¬ ClosesLate operationTimeout deadline now batches) :
    (closeBatches deadline operationTimeout now outcome batches).1 ≤ deadline ∧
      (closeBatches deadline operationTimeout now outcome batches).2 =
        (batches.flatten.map fun tracked => tracked.close.doneBy operationTimeout).foldl
          CloseOutcome.record outcome := by
  induction batches generalizing now outcome with
  | nil => exact ⟨Nat.le_of_not_lt h, rfl⟩
  | cons batch batches ih =>
    obtain ⟨hnow, hrest⟩ := not_or.mp h
    have hend := map_closeOne (batchEnd_le_of_not_late hrest)
    unfold closeBatches
    rw [if_neg hnow]
    dsimp only
    rw [hend, List.map_map, List.map_map, List.flatten_cons, List.map_append, List.foldl_append]
    exact ih hrest

theorem le_closeBatches (batches : List (List TrackedRegistration)) (outcome : CloseOutcome) :
    now ≤ (closeBatches deadline operationTimeout now outcome batches).1 := by
  induction batches generalizing now outcome with
  | nil => exact Nat.le_refl now
  | cons batch batches ih =>
    unfold closeBatches
    split
    · exact Nat.le_refl now
    · exact Nat.le_trans (foldl_max_le_iff.mp (Nat.le_refl _)).1 (ih _)

theorem timedOut_closeBatches {batches : List (List TrackedRegistration)}
    {outcome : CloseOutcome} (h : outcome.timedOut = true) :
    (closeBatches deadline operationTimeout now outcome batches).2.timedOut = true := by
  induction batches generalizing now outcome with
  | nil => exact h
  | cons batch batches ih =>
    unfold closeBatches
    split
    · rfl
    · refine ih ?_
      rw [foldl_record, h, Bool.true_or]

/-- Closes that would be late are cut off, which the outcome says. -/
theorem closeBatches_of_late {batches : List (List TrackedRegistration)}
    {outcome : CloseOutcome} (h : ClosesLate operationTimeout deadline now batches) :
    (closeBatches deadline operationTimeout now outcome batches).2.timedOut = true ∨
      deadline < (closeBatches deadline operationTimeout now outcome batches).1 := by
  induction batches generalizing now outcome with
  | nil => exact .inr h
  | cons batch batches ih =>
    unfold closeBatches
    by_cases hnow : deadline ≤ now
    · rw [if_pos hnow]
      exact .inl rfl
    · rw [if_neg hnow]
      dsimp only
      by_cases hend : batchEnd operationTimeout now batch ≤ deadline
      · rw [map_closeOne hend, List.map_map, List.map_map]
        exact ih (h.resolve_left hnow)
      · -- some close of the batch is cut off at the deadline
        refine .inl (timedOut_closeBatches ?_)
        obtain ⟨tracked, ht, hcut⟩ : ∃ tracked ∈ batch,
            deadline < now + tracked.busy operationTimeout := by
          by_contra hnone
          refine hend (foldl_max_le_iff.mpr ⟨Nat.le_of_not_le hnow, fun x hx => ?_⟩)
          obtain ⟨tracked, ht, rfl⟩ := List.mem_map.mp hx
          exact Nat.le_of_not_lt fun hlt => hnone ⟨tracked, ht, hlt⟩
        rw [foldl_record, Bool.or_eq_true, List.any_eq_true]
        refine .inr ⟨none, ?_, rfl⟩
        rw [List.map_map, List.mem_map]
        exact ⟨tracked, ht, congrArg Prod.snd (closeOne_of_lt hcut)⟩

theorem closeRegistrations_of_not_late {registrations : List TrackedRegistration}
    {concurrency : Nat} (h : ¬ ClosesLate operationTimeout deadline now
      (registrations.reverse.toChunks concurrency)) :
    (closeRegistrations deadline operationTimeout registrations concurrency now).1 ≤ deadline ∧
      (closeRegistrations deadline operationTimeout registrations concurrency now).2 =
        ⟨registrations.reverse.any fun r => (r.close.doneBy operationTimeout).isNone,
          registrations.reverse.findSome? fun r => closeError (r.close.doneBy operationTimeout)⟩ := by
  obtain ⟨hend, houtcome⟩ := @closeBatches_of_not_late _ _ _ _ ⟨false, none⟩ h
  refine ⟨hend, houtcome.trans ?_⟩
  rw [flatten_toChunks, foldl_record, List.any_map, List.findSome?_map]
  rfl

end

/-! ## Which error comes out -/

/-- **The shared deadline passes before the work is done**: the listener, the requests or
the accept supervisor are not done by it, the supervisor reports that its connections were
not, or the closes would not be. -/
inductive DeadlinePassed (config : ServerConfig) (tracked : List TrackedRegistration)
    (drains : Drains) (deadline : Nat) : Prop
  | listener (h : drains.listenerClosed.doneBy deadline = none)
  | requests (h : drains.requests.doneBy deadline = none)
  | accept (h : drains.accept.doneBy deadline = none)
  | connections {t : Nat} {outcome : AcceptOutcome} (h : drains.accept = some (t, some outcome))
    (hexceeded : outcome.deadlineExceeded = true)
  | closes {closed : Nat} {acknowledged : Bool}
    (h : drains.listenerClosed = some (closed, acknowledged))
    (hlate : ClosesLate config.registry.operationTimeout deadline closed
      (tracked.reverse.toChunks config.registry.maxConcurrentOperations))

/-- There was a fatal accept error, or the supervisor or its acknowledgement was lost. -/
inductive AcceptFailed (drains : Drains) (fatal : Option Text) : Prop
  | fatal (h : fatal.isSome = true)
  | outcome {t : Nat} {outcome : AcceptOutcome} (h : drains.accept = some (t, some outcome))
    (herror : outcome.fatalError.isSome = true)
  | listener {t : Nat} (h : drains.listenerClosed = some (t, false))
  | supervisor {t : Nat} (h : drains.accept = some (t, none))

theorem resolveShutdownResult_kind (registry : CloseOutcome) (outcome : Option AcceptOutcome)
    (fatal : Option Text) (acknowledged : Bool) :
    (resolveShutdownResult registry (acceptCompletion outcome) fatal
        (publishDrainingAfterListenerClosed acknowledged)).mapError ServerError.kind =
      if registry.timedOut = true ∨ outcome.any AcceptOutcome.deadlineExceeded = true then
        .error .timeout
      else if fatal.isSome = true ∨ outcome.any (fun o => o.fatalError.isSome) = true ∨
          acknowledged = false ∨ outcome = none then .error .accept
      else if registry.firstError.isSome = true then .error .registry
      else .ok () := by
  obtain ⟨timedOut, firstError⟩ := registry
  cases outcome with
  | none =>
    cases timedOut <;> cases fatal <;> cases acknowledged <;> rfl
  | some outcome =>
    obtain ⟨fatalError, exceeded⟩ := outcome
    cases timedOut <;> cases exceeded <;> cases fatal <;> cases fatalError <;>
      cases acknowledged <;> cases firstError <;> rfl

section

variable {config : ServerConfig} {tracked : List TrackedRegistration} {drains : Drains}
  {fatal : Option Text} {deadline now : Nat}

/-- The work is done in time when its four parts are. -/
theorem doneBy_drainWork
    {x : Option ServerError × CloseOutcome × Unit × Option AcceptOutcome} :
    (drainWork config tracked drains deadline).doneBy deadline = some x ↔
      ∃ closed acknowledged, drains.listenerClosed = some (closed, acknowledged) ∧
        (closeRegistrations deadline config.registry.operationTimeout tracked
          config.registry.maxConcurrentOperations closed).1 ≤ deadline ∧
        drains.requests.doneBy deadline = some () ∧
        ∃ outcome, drains.accept.doneBy deadline = some outcome ∧
          x = (publishDrainingAfterListenerClosed acknowledged,
            (closeRegistrations deadline config.registry.operationTimeout tracked
              config.registry.maxConcurrentOperations closed).2, (), outcome) := by
  unfold drainWork
  rw [Timed.doneBy_andThen]
  refine exists_congr fun closed => exists_congr fun acknowledged => and_congr_right fun _ => ?_
  rw [Timed.doneBy_mapValue, Option.map_eq_some_iff]
  constructor
  · rintro ⟨y, hy, rfl⟩
    obtain ⟨hcloses, hdrains⟩ := Timed.doneBy_join.mp hy
    obtain ⟨hrequests, haccept⟩ := Timed.doneBy_join.mp hdrains
    obtain ⟨e, hle, heq⟩ := Timed.doneBy_eq_some_iff.mp hcloses
    obtain ⟨he, houtcome⟩ := Prod.ext_iff.mp (Option.some.inj heq)
    exact ⟨he ▸ hle, hrequests, _, haccept, by rw [houtcome]⟩
  · rintro ⟨hle, hrequests, outcome, haccept, rfl⟩
    refine ⟨_, Timed.doneBy_join.mpr ⟨?_, Timed.doneBy_join.mpr ⟨hrequests, haccept⟩⟩, rfl⟩
    rw [Timed.doneBy_some, if_pos hle]

/-- A deadline that has passed is reported, by the drain itself or by what is drained. -/
theorem drainRuntime_of_passed
    (h : DeadlinePassed config tracked drains (now + config.gracefulShutdownTimeout)) :
    (drainRuntime config tracked drains fatal now).mapError ServerError.kind =
      .error .timeout := by
  unfold drainRuntime
  dsimp only
  rw [Timed.timeoutAt_snd]
  cases hwork : (drainWork config tracked drains (now + config.gracefulShutdownTimeout)).doneBy
      (now + config.gracefulShutdownTimeout) with
  | none => rfl
  | some x =>
    obtain ⟨closed, acknowledged, hlistener, hcloses, hrequests, outcome, haccept, rfl⟩ :=
      doneBy_drainWork.mp hwork
    dsimp only
    rw [resolveShutdownResult_kind, if_pos]
    cases h with
    | listener hnone =>
      rw [hlistener, Timed.doneBy_some, if_pos (Nat.le_trans (le_closeBatches _ _) hcloses)]
        at hnone
      cases hnone
    | requests hnone => cases hrequests.symm.trans hnone
    | accept hnone => cases haccept.symm.trans hnone
    | connections hsome hexceeded =>
      obtain ⟨t, -, heq⟩ := Timed.doneBy_eq_some_iff.mp haccept
      cases heq.symm.trans hsome
      exact .inr hexceeded
    | closes hsome hlate =>
      cases hlistener.symm.trans hsome
      exact .inl ((closeBatches_of_late hlate).resolve_right (Nat.not_lt_of_le hcloses))

theorem acceptFailed_iff {closed t : Nat} {acknowledged : Bool} {outcome : Option AcceptOutcome}
    (hlistener : drains.listenerClosed = some (closed, acknowledged))
    (haccept : drains.accept = some (t, outcome)) :
    fatal.isSome = true ∨ outcome.any (fun o => o.fatalError.isSome) = true ∨
      acknowledged = false ∨ outcome = none ↔ AcceptFailed drains fatal := by
  constructor
  · rintro (hfatal | houtcome | rfl | rfl)
    · exact .fatal hfatal
    · cases outcome with
      | none => cases houtcome
      | some outcome => exact .outcome haccept houtcome
    · exact .listener hlistener
    · exact .supervisor haccept
  · intro h
    cases h with
    | fatal hfatal => exact .inl hfatal
    | outcome h herror =>
      cases haccept.symm.trans h
      exact .inr (.inl herror)
    | listener h =>
      cases hlistener.symm.trans h
      exact .inr (.inr (.inl rfl))
    | supervisor h =>
      cases haccept.symm.trans h
      exact .inr (.inr (.inr rfl))

open Classical in
/-- **The kind of the error.** -/
theorem drainRuntime_kind :
    (drainRuntime config tracked drains fatal now).mapError ServerError.kind =
      if DeadlinePassed config tracked drains (now + config.gracefulShutdownTimeout) ∨
          ∃ r ∈ tracked, r.Exceeds config.registry.operationTimeout then .error .timeout
      else if AcceptFailed drains fatal then .error .accept
      else if ∃ r ∈ tracked, r.Fails config.registry.operationTimeout then .error .registry
      else .ok () := by
  by_cases hpassed : DeadlinePassed config tracked drains (now + config.gracefulShutdownTimeout)
  · rw [if_pos (.inl hpassed)]
    exact drainRuntime_of_passed hpassed
  obtain ⟨⟨closed, acknowledged⟩, hlistener⟩ : ∃ x, drains.listenerClosed = some x := by
    by_contra hnone
    exact hpassed (.listener (by rw [Option.eq_none_iff_forall_ne_some.mpr (not_exists.mp hnone)]; rfl))
  obtain ⟨u, hrequests⟩ := Option.ne_none_iff_exists'.mp fun h => hpassed (.requests h)
  obtain ⟨outcome, haccept⟩ := Option.ne_none_iff_exists'.mp fun h => hpassed (.accept h)
  obtain ⟨t, -, hsupervisor⟩ := Timed.doneBy_eq_some_iff.mp haccept
  obtain ⟨hcloses, hclosed⟩ := closeRegistrations_of_not_late fun h => hpassed (.closes hlistener h)
  have hwork := doneBy_drainWork.mpr
    ⟨closed, acknowledged, hlistener, hcloses, hrequests, outcome, haccept, rfl⟩
  unfold drainRuntime
  dsimp only
  rw [Timed.timeoutAt_snd, hwork]
  dsimp only
  rw [resolveShutdownResult_kind, hclosed]
  have hexceeded : ¬ outcome.any AcceptOutcome.deadlineExceeded = true := fun h => by
    cases outcome with
    | none => cases h
    | some outcome => exact hpassed (.connections hsupervisor h)
  have htimeout : (tracked.reverse.any fun r =>
        (r.close.doneBy config.registry.operationTimeout).isNone) = true ∨
          outcome.any AcceptOutcome.deadlineExceeded = true ↔
      DeadlinePassed config tracked drains (now + config.gracefulShutdownTimeout) ∨
        ∃ r ∈ tracked, r.Exceeds config.registry.operationTimeout := by
    rw [or_iff_left hexceeded, or_iff_right hpassed, List.any_eq_true]
    simp only [List.mem_reverse, Option.isNone_iff_eq_none]
    rfl
  have hfailed : fatal.isSome = true ∨ outcome.any (fun o => o.fatalError.isSome) = true ∨
      acknowledged = false ∨ outcome = none ↔ AcceptFailed drains fatal :=
    acceptFailed_iff hlistener hsupervisor
  have hregistry : (tracked.reverse.findSome? fun r =>
        closeError (r.close.doneBy config.registry.operationTimeout)).isSome = true ↔
      ∃ r ∈ tracked, r.Fails config.registry.operationTimeout := by
    rw [List.findSome?_isSome_iff]
    simp only [List.mem_reverse, isSome_closeError]
    rfl
  simp only [htimeout, hfailed, hregistry]

open Classical in
/-- **The result of a shutdown.**  It is a timeout if the shared deadline passes before the
work is done or some close exceeds its own timeout, else an accept error if the accept side
failed, else a registry error if some close failed; and a handle that nobody refers to any
more has been asked to close. -/
theorem server_shutdown_result (config : ServerConfig) (tracked : List TrackedRegistration)
    (drains : Drains) (fatal : Option Text) (now : Nat) :
    (drainRuntime config tracked drains fatal now).mapError ServerError.kind =
      (if DeadlinePassed config tracked drains (now + config.gracefulShutdownTimeout) ∨
          ∃ r ∈ tracked, r.Exceeds config.registry.operationTimeout then .error .timeout
      else if AcceptFailed drains fatal then .error .accept
      else if ∃ r ∈ tracked, r.Fails config.registry.operationTimeout then .error .registry
      else .ok ()) ∧
    ∀ es, ((lifecycle prepareRegistration).run es).shared.owners = 0 →
      (∀ t ∈ ((lifecycle prepareRegistration).run es).threads, t.AtRest) →
      ((lifecycle prepareRegistration).run es).shared.closeRequested = true :=
  ⟨drainRuntime_kind, fun es howners hrest =>
    (inv_run prepareRegistration es).closeRequested_of_ownerless hrest howners⟩

end

/-- One close at a time, which gets 25 ms of the 1200. -/
def oneAtATime : ServerConfig where
  gracefulShutdownTimeout := 1200
  registry := ⟨25, 1, by decide, Nat.one_pos⟩
  gracefulShutdownTimeout_pos := by decide

/-- Nothing but the closes takes time. -/
def quickDrains : Drains := ⟨some (0, true), some (0, ()), some (0, some ⟨none, false⟩)⟩

/-- A handle that is dropped without a call has been asked to close. -/
theorem server_shutdown_result_dropped :
    let es := .spawn .dropHandle :: runs 0 8
    ((lifecycle prepareRegistration).run es).shared.closeRequested = true := by
  refine (server_shutdown_result oneAtATime [] quickDrains none 0).2 _ (by decide) fun t ht => ?_
  have hthreads : ((lifecycle prepareRegistration).run
      (.spawn .dropHandle :: runs 0 8)).threads = [.ended .done] := by
    decide
  rw [hthreads, List.mem_singleton] at ht
  rw [ht]
  trivial

/-- A close that never ends is given up after 25 ms, and the result is a timeout although
the deadline has not passed. -/
theorem server_shutdown_timeout_early :
    drainRuntime oneAtATime [⟨none⟩] quickDrains none 0 = .error deadlineElapsed ∧
      ¬ DeadlinePassed oneAtATime [⟨none⟩] quickDrains 1200 := by
  refine ⟨rfl, fun h => ?_⟩
  cases h with
  | listener h | requests h | accept h => cases h
  | connections h hexceeded =>
    cases h
    cases hexceeded
  | closes h hlate =>
    cases h
    exact absurd hlate (by decide)

end Fusen.Server
