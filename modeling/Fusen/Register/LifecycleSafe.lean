import Fusen.Register.LifecycleRuns

/-!
# What the lifecycle promises

`lifecycle_safe`: one activation, one cleanup after it, results that are written once
and returned to every waiter, and no successful activation left without the cleanup
somebody asked for.  `observed_not_undone`: the cancellation of a waiter does not
close an activation that another waiter has returned.
-/

namespace Fusen.Register

open Lib Fusen.Runtime

/-! ## The results the calls return -/

def CallEnd.activated? : CallEnd → Option RegistryResult
  | .activated r => some r
  | .closed _ | .cancelled | .done => none

def CallEnd.closed? : CallEnd → Option RegistryResult
  | .closed r => some r
  | .activated _ | .cancelled | .done => none

namespace Call

/-- The activation result the call has taken. -/
def result? : Call → Option RegistryResult
  | .complete r => some r
  | .release r => r
  | .publishClose (.complete r) => some r
  | t => t.end?.bind CallEnd.activated?

/-- The close result the call has taken. -/
def closed? (t : Call) : Option RegistryResult := t.end?.bind CallEnd.closed?

end Call

theorem AfterRequest.result?_call (n : AfterRequest) :
    n.call.result? = (Call.lockRequest n).result? := by
  cases n with
  | lastDrop e => cases e <;> rfl
  | _ => rfl

theorem AfterPublish.result?_call (m : AfterPublish) :
    m.call.result? = (Call.publishClose m).result? := by
  cases m with
  | request n => exact n.result?_call.trans rfl
  | _ => rfl

theorem AfterRequest.closed?_call (n : AfterRequest) :
    n.call.closed? = (Call.lockRequest n).closed? := by
  cases n with
  | lastDrop e => cases e <;> rfl
  | _ => rfl

theorem AfterPublish.closed?_call (m : AfterPublish) :
    m.call.closed? = (Call.publishClose m).closed? := by
  cases m with
  | request n => exact n.closed?_call.trans rfl
  | _ => rfl

section Step

variable {ops : Operations} {s s' : Lifecycle} {ts : List Call} {t t' : Call} {i : Nat}

/-- An activation takes the published result, or the one it is about to publish itself,
unless it is a stray call. -/
theorem CallStep.result? (h : CallStep ops s t s' t')
    (hstray : t = .lockFinish → s.start = .prepared) {r : RegistryResult}
    (hr : t'.result? = some r) :
    t.result? = some r ∨ s.activationResult.value = some r ∨
      ∃ r', t = .publish r' (.complete r) := by
  cases h with
  | stray hlock hstart => exact absurd (hstray rfl) hstart
  | publish r' next =>
    cases next with
    | complete r'' =>
      cases hr
      exact .inr (.inr ⟨r', rfl⟩)
    | waitActivation => exact .inl hr
    | request next => exact .inl hr
  | publishClose next =>
    rw [next.result?_call] at hr
    exact .inl hr
  | notPrepared next =>
    rw [next.result?_call] at hr
    exact .inl hr
  | result r' h =>
    cases hr
    exact .inr (.inl h)
  | _ => exact .inl hr

theorem CallStep.closed? (h : CallStep ops s t s' t') {r : RegistryResult}
    (hr : t'.closed? = some r) : t.closed? = some r ∨ s.closeResult.value = some r := by
  cases h with
  | publishClose next =>
    rw [next.closed?_call] at hr
    exact .inl hr
  | notPrepared next =>
    rw [next.closed?_call] at hr
    exact .inl hr
  | closeResult r' h =>
    cases hr
    exact .inr h
  | _ => exact .inl hr

theorem Published.activation_le {p q c : Nat} (h : Published s p q c) :
    s.activationResult.version + q ≤ 1 := by
  rw [h.activation]
  unfold Lifecycle.activationDue
  split
  · omega
  · unfold WorkerPhase.activationSent
    split <;> omega
  · omega

theorem Published.close_le {p q c : Nat} (h : Published s p q c) :
    s.closeResult.version + q + c ≤ 1 := by
  rw [h.close]
  unfold Lifecycle.closeDue
  split
  · omega
  · unfold WorkerPhase.closeSent
    split <;> omega
  · omega

/-- A channel of results that is sent once more, and at most once, was empty. -/
theorem eq_none_of_version {w : Watch SharedResult} (hvalue : w.value.isSome ↔ w.version ≠ 0)
    (hv : w.version = 0) : w.value = none := by
  by_contra hne
  exact hvalue.mp (Option.isSome_iff_ne_none.mpr hne) hv

/-- The activation result changes only while there is none. -/
theorem Inv.activationResult_of_step (h : Inv s ts) (hi : ts[i]? = some t)
    (hs : CallStep ops s t s' t') :
    s'.activationResult = s.activationResult ∨ s.activationResult.value = none := by
  have hle := (h.step hi hs).published.activation_le
  cases hs with
  | publish r next =>
    refine .inr (eq_none_of_version h.published.activationValue ?_)
    simp only [Watch.version_sendReplace] at hle
    omega
  | poll provided hw =>
    rcases (sendsByPhase_workerNext hw).activationValue with heq | ⟨r, heq⟩
    · exact .inl heq
    · refine .inr (eq_none_of_version h.published.activationValue ?_)
      rw [heq, Watch.version_sendReplace] at hle
      omega
  | abort hw =>
    rcases (sendsByPhase_workerAbort hw).activationValue with heq | ⟨r, heq⟩
    · exact .inl heq
    · refine .inr (eq_none_of_version h.published.activationValue ?_)
      rw [heq, Watch.version_sendReplace] at hle
      omega
  | _ => exact .inl rfl

theorem Inv.closeResult_of_step (h : Inv s ts) (hi : ts[i]? = some t)
    (hs : CallStep ops s t s' t') :
    s'.closeResult = s.closeResult ∨ s.closeResult.value = none := by
  have hle := (h.step hi hs).published.close_le
  cases hs with
  | publishClose next =>
    refine .inr (eq_none_of_version h.published.closeValue ?_)
    simp only [Watch.version_sendReplace] at hle
    omega
  | poll provided hw =>
    rcases (sendsByPhase_workerNext hw).closeValue with heq | ⟨r, heq⟩
    · exact .inl heq
    · refine .inr (eq_none_of_version h.published.closeValue ?_)
      rw [heq, Watch.version_sendReplace] at hle
      omega
  | abort hw =>
    rcases (sendsByPhase_workerAbort hw).closeValue with heq | ⟨r, heq⟩
    · exact .inl heq
    · refine .inr (eq_none_of_version h.published.closeValue ?_)
      rw [heq, Watch.version_sendReplace] at hle
      omega
  | _ => exact .inl rfl

end Step

/-- The calls have taken the results that are published, or publish what they return. -/
structure Agrees (s : Lifecycle) (ts : List Call) : Prop where
  activation : ∀ t ∈ ts, ∀ r, t.result? = some r → s.activationResult.value = some r
  publishing : ∀ r r', Call.publish r (.complete r') ∈ ts → r' = r

def CloseAgrees (s : Lifecycle) (ts : List Call) : Prop :=
  ∀ t ∈ ts, ∀ r, t.closed? = some r → s.closeResult.value = some r

section Agrees

variable {ops : Operations} {s s' : Lifecycle} {ts : List Call} {t t' : Call} {i : Nat}

theorem Agrees.step (h : Agrees s ts) (hinv : Inv s ts) (hi : ts[i]? = some t)
    (hs : CallStep ops s t s' t') (hstray : t = .lockFinish → s.start = .prepared) :
    Agrees s' (ts.set i t') := by
  have hmem := List.mem_of_getElem? hi
  have hkeep {r : RegistryResult} (hv : s.activationResult.value = some r) :
      s'.activationResult.value = some r := by
    rcases hinv.activationResult_of_step hi hs with heq | hnone
    · rw [heq]
      exact hv
    · rw [hv] at hnone
      cases hnone
  constructor
  · intro u hu r hr
    rcases (mem_set_iff hi).mp hu with rfl | ⟨j, -, hj⟩
    · rcases hs.result? hstray hr with hold | hv | ⟨r', rfl⟩
      · exact hkeep (h.activation t hmem r hold)
      · exact hkeep hv
      · obtain rfl := h.publishing r' r hmem
        cases hs
        rfl
    · exact hkeep (h.activation u (List.mem_of_getElem? hj) r hr)
  · intro r r' hu
    rcases (mem_set_iff hi).mp hu with heq | ⟨j, -, hj⟩
    · cases hs with
      | finish =>
        cases heq
        rfl
      | publishClose next =>
        cases next with
        | request n => cases n <;> cases heq
        | _ => cases heq
      | notPrepared next => cases next <;> cases heq
      | _ => cases heq
    · exact h.publishing r r' (List.mem_of_getElem? hj)

theorem CloseAgrees.step (h : CloseAgrees s ts) (hinv : Inv s ts) (hi : ts[i]? = some t)
    (hs : CallStep ops s t s' t') : CloseAgrees s' (ts.set i t') := by
  have hkeep {r : RegistryResult} (hv : s.closeResult.value = some r) :
      s'.closeResult.value = some r := by
    rcases hinv.closeResult_of_step hi hs with heq | hnone
    · rw [heq]
      exact hv
    · rw [hv] at hnone
      cases hnone
  intro u hu r hr
  rcases (mem_set_iff hi).mp hu with rfl | ⟨j, -, hj⟩
  · rcases hs.closed? hr with hold | hv
    · exact hkeep (h t (List.mem_of_getElem? hi) r hold)
    · exact hkeep hv
  · exact hkeep (h u (List.mem_of_getElem? hj) r hr)

end Agrees

/-- An `activate` outside a runtime that found no result finds the handle already started
or finished. -/
def Stray (p : Pool Lifecycle Call) : Event CallKind Action → Prop
  | .act i (.run _) =>
    p.threads[i]? = some .lockFinish ∧ p.shared.locked = false ∧ p.shared.start ≠ .prepared
  | _ => False

instance (p : Pool Lifecycle Call) (ev : Event CallKind Action) : Decidable (Stray p ev) :=
  match ev with
  | .act _ (.run _) => inferInstanceAs (Decidable (_ ∧ _ ∧ _))
  | .act _ .drop | .act _ (.poll _) | .act _ .abort | .spawn _ => inferInstanceAs (Decidable False)

/-! ## States at rest -/

/-- The call is over, is a future between two polls, or has not begun. -/
def Call.AtRest : Call → Prop
  | .called _ | .registered | .waitActivation | .closing | .waitClose | .ended _ | .runtime => True
  | _ => False

/-- The worker is over, or waits for the provider or for a close request. -/
def Lifecycle.WorkerAtRest (s : Lifecycle) : Prop :=
  match s.worker.phase with
  | .absent | .activating | .cleaning | .finished | .dropped => True
  | .awaiting => s.closeRequest.changed s.worker.seen = false
  | _ => False

/-- The activation is over: it was finished before it started, or the worker has published it. -/
def Lifecycle.ActivationOver (s : Lifecycle) : Prop :=
  s.start = .finished ∨
    match s.worker.phase with
    | .absent | .spawned | .activating | .activated _ | .publishing _ | .aborted => False
    | _ => True

/-- The handle was finished before it started, or its worker is over. -/
def Lifecycle.Over (s : Lifecycle) : Prop :=
  s.start = .finished ∨ s.worker.phase = .finished ∨ s.worker.phase = .dropped

/-- The task of the worker has been dropped. -/
def Lifecycle.Aborted (s : Lifecycle) : Prop :=
  s.worker.phase = .aborted ∨ s.worker.phase = .cleanupAborted ∨ s.worker.phase = .dropped

/-- Every activation call has been cancelled: none is waiting, and none has returned. -/
def AllCancelled (ts : List Call) : Prop :=
  ∀ t ∈ ts, t.waits = 0 ∧ ∀ r, t ≠ .ended (.activated r)

section Rest

variable {s : Lifecycle} {ts : List Call}

theorem total_eq_zero_of_atRest {w : Call → Nat} (hrest : ∀ t ∈ ts, t.AtRest)
    (hw : ∀ t : Call, t.AtRest → w t = 0) : total w ts = 0 :=
  total_eq_zero_iff.mpr fun t ht => hw t (hrest t ht)

/-- When the last owner has gone, its drop has asked for the close. -/
theorem Inv.closeRequested_of_ownerless (h : Inv s ts) (hrest : ∀ t ∈ ts, t.AtRest)
    (howners : s.owners = 0) : s.closeRequested = true := by
  by_contra hreq
  rw [Bool.not_eq_true] at hreq
  have := h.ownerless howners hreq
  rw [total_eq_zero_of_atRest hrest fun t ht => by
    cases t <;> first | rfl | exact absurd ht (by simp [Call.AtRest])] at this
  exact absurd this (Nat.lt_irrefl _)

/-- At rest, somebody has asked for the close if all waiters or all owners have gone. -/
theorem Inv.closeRequested_of_atRest (h : Inv s ts) (hrest : ∀ t ∈ ts, t.AtRest)
    (hstarted : s.start = .started)
    (hgone : s.closeRequested = true ∨ AllCancelled ts ∨ s.owners = 0) :
    s.closeRequested = true := by
  by_contra hreq
  rw [Bool.not_eq_true] at hreq
  rcases hgone with hc | hall | howners
  · rw [hreq] at hc
    cases hc
  · have hwaits : s.activationWaiters = 0 := by
      rw [h.waits]
      exact total_eq_zero_iff.mpr fun t ht => (hall t ht).1
    have hobs : s.activationObserved = false := by
      rw [← Bool.not_eq_true, h.observed, Nat.not_lt, Nat.le_zero, total_eq_zero_iff]
      intro t ht
      have hr := hrest t ht
      cases t with
      | ended e =>
        cases e with
        | activated r => exact absurd rfl ((hall _ ht).2 r)
        | _ => rfl
      | _ => first | rfl | exact absurd hr (by simp [Call.AtRest])
    have := h.asked hstarted hwaits hobs hreq
    rw [total_eq_zero_of_atRest hrest fun t ht => by
      cases t <;> first | rfl | exact absurd ht (by simp [Call.AtRest])] at this
    exact absurd this (Nat.lt_irrefl _)
  · exact Bool.false_ne_true (hreq.symm.trans (h.closeRequested_of_ownerless hrest howners))

/-- **No successful activation is left behind.** -/
theorem Inv.cleanups_of_atRest (h : Inv s ts) (hrest : ∀ t ∈ ts, t.AtRest)
    (hworker : s.WorkerAtRest) (habort : ¬ s.Aborted) (hok : s.worker.outcome = some .ok)
    (hgone : s.closeRequested = true ∨ AllCancelled ts ∨ s.owners = 0) : s.cleanups = 1 := by
  have hdone := h.done
  have hphase : s.worker.phase ≠ .absent := by
    intro habsent
    simp only [Lifecycle.WorkerDone, habsent, hok] at hdone
    exact absurd hdone.1 (by simp)
  have hstarted : s.start = .started := by
    by_contra hne
    exact hphase (h.published.absent.mpr hne)
  have hreq := h.closeRequested_of_atRest hrest hstarted hgone
  have hsends := h.sends
  rw [total_eq_zero_of_atRest hrest fun t ht => by
    cases t <;> first | rfl | exact absurd ht (by simp [Call.AtRest]), hreq] at hsends
  cases heq : s.worker.phase with
  | absent => exact absurd heq hphase
  | activating =>
    simp only [Lifecycle.WorkerDone, heq, hok] at hdone
    exact absurd hdone.1 (by simp)
  | awaiting =>
    -- the request that was sent is one the worker has not seen
    simp only [Lifecycle.WorkerDone, heq] at hdone
    simp only [Lifecycle.WorkerAtRest, heq, Watch.changed, hdone.2.2.2, bne_eq_false_iff_eq]
      at hworker
    rw [← hworker] at hsends
    cases hsends
  | cleaning =>
    simp only [Lifecycle.WorkerDone, heq] at hdone
    exact hdone.2.2
  | finished =>
    simp only [Lifecycle.WorkerDone, heq] at hdone
    exact hdone.2.2
  | dropped => exact absurd (.inr (.inr heq)) habort
  | _ => simp only [Lifecycle.WorkerAtRest, heq] at hworker

/-- At rest, nobody has a result that is still to be sent. -/
theorem Inv.due_of_atRest (h : Inv s ts) (hrest : ∀ t ∈ ts, t.AtRest) :
    s.activationResult.version = s.activationDue ∧ s.closeResult.version = s.closeDue := by
  have hq : total Call.publishes ts = 0 := total_eq_zero_of_atRest hrest fun t ht => by
    cases t <;> first | rfl | exact absurd ht (by simp [Call.AtRest])
  have hc : total Call.publishesClose ts = 0 := total_eq_zero_of_atRest hrest fun t ht => by
    cases t <;> first | rfl | exact absurd ht (by simp [Call.AtRest])
  have hactivation := h.published.activation
  have hclose := h.published.close
  omega

/-- **An activation that is over has been written**, once, and its waiters return. -/
theorem Inv.activation_written (h : Inv s ts) (hrest : ∀ t ∈ ts, t.AtRest)
    (hover : s.ActivationOver) (ops : Operations) : s.activationResult.version = 1 ∧
      ∀ inRuntime, (s.next ops .waitActivation (.run inRuntime)).isSome := by
  have hdue : s.activationDue = 1 := by
    unfold Lifecycle.activationDue
    rcases hover with hfinished | hphase
    · rw [hfinished]
    · have hstarted : s.start = .started := by
        by_contra hne
        rw [h.published.absent.mpr hne] at hphase
        exact hphase
      rw [hstarted]
      cases hw : s.worker.phase <;> simp_all [WorkerPhase.activationSent]
  have hversion := (h.due_of_atRest hrest).1.trans hdue
  have hvalue := h.published.activationValue.mpr (by rw [hversion]; exact Nat.one_ne_zero)
  refine ⟨hversion, fun inRuntime => ?_⟩
  simpa only [Lifecycle.next, Option.isSome_map] using hvalue

/-- **A handle that is over has its close result written**, once, and its waiters return. -/
theorem Inv.close_written (h : Inv s ts) (hrest : ∀ t ∈ ts, t.AtRest) (hover : s.Over)
    (ops : Operations) : s.closeResult.version = 1 ∧
      ∀ inRuntime, (s.next ops .waitClose (.run inRuntime)).isSome := by
  have hdue : s.closeDue = 1 := by
    unfold Lifecycle.closeDue
    rcases hover with hfinished | hphase
    · rw [hfinished]
    · have hstarted : s.start = .started := by
        by_contra hne
        rw [h.published.absent.mpr hne] at hphase
        rcases hphase with hphase | hphase <;> cases hphase
      rw [hstarted]
      rcases hphase with hphase | hphase <;> rw [hphase] <;> rfl
  have hversion := (h.due_of_atRest hrest).2.trans hdue
  have hvalue := h.published.closeValue.mpr (by rw [hversion]; exact Nat.one_ne_zero)
  refine ⟨hversion, fun inRuntime => ?_⟩
  simpa only [Lifecycle.next, Option.isSome_map] using hvalue

/-- **Nothing blocks for good.**  Where a call is not at rest, some call can move. -/
theorem Inv.moves (h : Inv s ts) (ops : Operations) : (∀ t ∈ ts, t.AtRest) ∨
    ∃ t ∈ ts, ¬ t.AtRest ∧ (s.next ops t (.run true)).isSome := by
  by_contra hstuck
  rw [not_or] at hstuck
  obtain ⟨hsome, hstuck⟩ := hstuck
  have hnone {t : Call} (ht : t ∈ ts) (hrest : ¬ t.AtRest)
      (hmove : (s.next ops t (.run true)).isSome) : False := hstuck ⟨t, ht, hrest, hmove⟩
  cases hlock : s.locked with
  | true =>
    -- the call that has the lock can move
    have hlocked := h.published.locked
    have hp : total Call.prepares ts = 0 := total_eq_zero_iff.mpr fun t ht => by
      cases t with
      | readRequested => exact (hnone ht id (by simp only [Lifecycle.next]; split <;> rfl)).elim
      | spawnWorker => exact (hnone ht id rfl).elim
      | _ => rfl
    have hq : total Call.publishes ts = 0 := total_eq_zero_iff.mpr fun t ht => by
      cases t with
      | publish r next => exact (hnone ht id rfl).elim
      | _ => rfl
    have hc : total Call.publishesClose ts = 0 := total_eq_zero_iff.mpr fun t ht => by
      cases t with
      | publishClose next => exact (hnone ht id rfl).elim
      | _ => rfl
    rw [hp, hq, hc, hlock] at hlocked
    cases hlocked
  | false =>
    refine hsome fun t ht => ?_
    by_contra hrest
    refine hnone ht hrest ?_
    cases t with
    | release r =>
      cases r with
      | some r => rfl
      | none =>
        simp only [Lifecycle.next]
        split <;> rfl
    | _ => first
      | exact absurd trivial hrest
      | rfl
      | (simp only [Lifecycle.next, hlock, Bool.false_eq_true, if_false]; split <;> rfl)

theorem Lifecycle.worker_moves (s : Lifecycle) (ops : Operations) (provided : Provided) :
    s.WorkerAtRest ∨ (s.workerNext ops provided).isSome := by
  unfold Lifecycle.WorkerAtRest
  fun_cases Lifecycle.workerNext ops s provided <;> simp_all

end Rest

/-! ## In every interleaving -/

theorem closeAgrees_run (ops : Operations) (es : List (Event CallKind Action)) :
    CloseAgrees ((lifecycle ops).run es).shared ((lifecycle ops).run es).threads := by
  refine ((lifecycle ops).invariant
    (I := fun p => Inv p.shared p.threads ∧ CloseAgrees p.shared p.threads) ?_ ?_ ?_ es).2
  · exact ⟨.new, fun t ht => by cases ht⟩
  · rintro p kind ⟨hinv, h⟩
    refine ⟨hinv.spawn kind, fun t ht r hr => ?_⟩
    rcases List.mem_append.mp ht with ht | ht
    · exact h t ht r hr
    · rw [List.mem_singleton.mp ht] at hr
      cases kind <;> cases hr
  · rintro p i t a s' t' ⟨hinv, h⟩ hi hn
    have hs := callStep_of_next hn
    exact ⟨hinv.step hi hs, h.step hinv hi hs⟩

theorem agrees_run (ops : Operations) (es : List (Event CallKind Action))
    (h : ∀ before ev after, es = before ++ ev :: after → ¬ Stray ((lifecycle ops).run before) ev) :
    Agrees ((lifecycle ops).run es).shared ((lifecycle ops).run es).threads := by
  refine ((lifecycle ops).invariant_of_steps (C := fun p ev => ¬ Stray p ev)
    (I := fun p => Inv p.shared p.threads ∧ Agrees p.shared p.threads) ?_ ?_ ?_ es h).2
  · exact ⟨.new, fun t ht => (by cases ht), fun r r' ht => (by cases ht)⟩
  · rintro p kind ⟨hinv, h⟩
    refine ⟨hinv.spawn kind, fun t ht r hr => ?_, fun r r' ht => ?_⟩
    · rcases List.mem_append.mp ht with ht | ht
      · exact h.activation t ht r hr
      · rw [List.mem_singleton.mp ht] at hr
        cases kind <;> cases hr
    · rcases List.mem_append.mp ht with ht | ht
      · exact h.publishing r r' ht
      · cases kind <;> cases List.mem_singleton.mp ht
  · rintro p i t a s' t' ⟨hinv, h⟩ hstray hi hn
    have hs := callStep_of_next hn
    refine ⟨hinv.step hi hs, h.step hinv hi hs ?_⟩
    rintro rfl
    by_contra hstart
    cases a with
    | run inRuntime =>
      cases hs with
      | finish hlock hprepared => exact hstart hprepared
      | stray hlock => exact hstray ⟨hi, hlock, hstart⟩
    | _ => cases hn

/-- **The lifecycle is safe**, in every interleaving without a stray call.  The activation
is started at most once; the cleanup factory is called at most once, after the
activation has ended; each result is written at most once and is what every waiter
returns, and where no call is left to run it has been written if the activation, or the
worker, is over, so that every waiter returns; and an activation that succeeded has then been
cleaned up if a close was requested, if every waiter was cancelled or if every owner
has gone, unless the worker was aborted. -/
theorem lifecycle_safe (ops : Operations) (es : List (Event CallKind Action))
    (h : ∀ before ev after, es = before ++ ev :: after → ¬ Stray ((lifecycle ops).run before) ev) :
    let s := ((lifecycle ops).run es).shared
    let ts := ((lifecycle ops).run es).threads
    s.activations ≤ 1 ∧
      (s.cleanups ≤ 1 ∧ (0 < s.cleanups → s.activations = 1 ∧ s.worker.outcome.isSome)) ∧
      (s.activationResult.version ≤ 1 ∧ s.closeResult.version ≤ 1) ∧
      (∀ r, Call.ended (.activated r) ∈ ts → s.activationResult.value = some r) ∧
      (∀ r, Call.ended (.closed r) ∈ ts → s.closeResult.value = some r) ∧
      ((∀ t ∈ ts, t.AtRest) →
        (s.ActivationOver → s.activationResult.version = 1 ∧
          ∀ inRuntime, (s.next ops .waitActivation (.run inRuntime)).isSome) ∧
        (s.Over → s.closeResult.version = 1 ∧
          ∀ inRuntime, (s.next ops .waitClose (.run inRuntime)).isSome)) ∧
      ((∀ t ∈ ts, t.AtRest) → s.WorkerAtRest → ¬ s.Aborted → s.worker.outcome = some .ok →
        s.closeRequested = true ∨ AllCancelled ts ∨ s.owners = 0 → s.cleanups = 1) ∧
      ((∀ t ∈ ts, t.AtRest) ∨ ∃ t ∈ ts, ¬ t.AtRest ∧ (s.next ops t (.run true)).isSome) ∧
      ∀ provided, s.WorkerAtRest ∨ (s.workerNext ops provided).isSome := by
  intro s ts
  have hinv : Inv s ts := inv_run ops es
  have hagrees : Agrees s ts := agrees_run ops es h
  have hdone : s.activations ≤ 1 ∧ s.cleanups ≤ 1 ∧
      (0 < s.cleanups → s.activations = 1 ∧ s.worker.outcome.isSome) := by
    have hd := hinv.done
    unfold Lifecycle.WorkerDone at hd
    split at hd <;> simp_all
  refine ⟨hdone.1, hdone.2, ⟨?_, ?_⟩, ?_, ?_, ?_, ?_, hinv.moves ops, s.worker_moves ops⟩
  · have := hinv.published.activation_le
    omega
  · have := hinv.published.close_le
    omega
  · exact fun r hr => hagrees.activation _ hr r rfl
  · exact fun r hr => closeAgrees_run ops es _ hr r rfl
  · exact fun hrest => ⟨fun hover => hinv.activation_written hrest hover ops,
      fun hover => hinv.close_written hrest hover ops⟩
  · exact fun hrest hworker habort hok hgone =>
      hinv.cleanups_of_atRest hrest hworker habort hok hgone

/-! ## A stray call -/

def runs (i n : Nat) : List (Event CallKind Action) := List.replicate n (.act i (.run true))

/-- The worker, thread 1, is polled and the provider's futures succeed. -/
def polls (n : Nat) : List (Event CallKind Action) :=
  List.replicate n (.act 1 (.poll (.result .ok)))

/-- An activation starts the worker and waits. -/
def activationStarts : List (Event CallKind Action) :=
  [.spawn .activate, .spawn .runtime] ++ runs 0 5

/-- Its waiter is cancelled, and then the activation succeeds. -/
def lateSuccess : List (Event CallKind Action) :=
  activationStarts ++ [.act 0 .drop] ++ runs 0 6 ++ polls 8

theorem lifecycle_safe_cancelled :
    ((lifecycle prepareRegistration).run lateSuccess).shared.cleanups = 1 ∧
      ((lifecycle prepareRegistration).run lateSuccess).shared.activationResult.version = 1 ∧
      ((lifecycle prepareRegistration).run lateSuccess).shared.closeResult.version = 1 := by
  have hts : ((lifecycle prepareRegistration).run lateSuccess).threads =
      [.ended .cancelled, .runtime] := by
    decide +kernel
  have hphase : ((lifecycle prepareRegistration).run lateSuccess).shared.worker.phase =
      .finished := by
    decide +kernel
  have hsafe := lifecycle_safe prepareRegistration lateSuccess
    (forall_split_iff.mpr (by decide +kernel))
  obtain ⟨-, -, -, -, -, hwritten, hcleaned, -, -⟩ := hsafe
  have hrest : ∀ t ∈ ((lifecycle prepareRegistration).run lateSuccess).threads, t.AtRest := by
    simp [hts, Call.AtRest]
  refine ⟨hcleaned hrest ?_ ?_ (by decide +kernel) (.inr (.inl ?_)),
    ((hwritten hrest).1 (.inr ?_)).1, ((hwritten hrest).2 (.inr (.inl hphase))).1⟩
  · simp [Lifecycle.WorkerAtRest, hphase]
  · simp [Lifecycle.Aborted, hphase]
  · simp [hts, AllCancelled, Call.waits]
  · simp [hphase]

/-- An activation outside a runtime fails by itself while the shared one succeeds. -/
theorem lifecycle_stray :
    ¬ ∀ es r, Call.ended (.activated r) ∈ ((lifecycle prepareRegistration).run es).threads →
      ((lifecycle prepareRegistration).run es).shared.activationResult.value = some r := by
  intro h
  have := h (activationStarts ++ polls 1 ++ [.spawn .activate] ++ runs 2 1 ++
    [.act 2 (.run false)] ++ runs 2 4 ++ polls 3 ++ runs 0 4) prepareRegistration.noRuntime
    (by decide +kernel)
  exact absurd this (by decide +kernel)

/-! ## An observed activation -/

/-- The call has stored that it observed a successful activation. -/
def Call.Observed (t : Call) : Prop := t.observes = 1 ∧ t.result? = some .ok

/-- The call is a cancelled waiter's and requests the close next. -/
def Call.cancels : Call → Nat
  | .request .cancelledWaiter => 1
  | _ => 0

/-- A waiter stores that it observed a success after another one, which is cancelled, has
read that nobody did and before that one requests the close. -/
def Crossing (p : Pool Lifecycle Call) : Event CallKind Action → Prop
  | .act i (.run _) =>
    p.threads[i]? = some (.complete .ok) ∧ Call.request .cancelledWaiter ∈ p.threads
  | _ => False

instance (p : Pool Lifecycle Call) (ev : Event CallKind Action) : Decidable (Crossing p ev) :=
  match ev with
  | .act _ (.run _) => inferInstanceAs (Decidable (_ ∧ _))
  | .act _ .drop | .act _ (.poll _) | .act _ .abort | .spawn _ => inferInstanceAs (Decidable False)

/-- A future that has ended drops the lifecycle with its `Arc`; a handle that is dropped, or
a `request_close` that borrows one, is none. -/
def Call.endsFuture : Call → Bool
  | .dropArc .done => false
  | .dropArc _ => true
  | _ => false

/-- A future outlives the last handle: it drops the last `Arc`. -/
def Outlives (p : Pool Lifecycle Call) : Event CallKind Action → Prop
  | .act i (.run _) => p.shared.owners = 1 ∧ (p.threads[i]?).any Call.endsFuture = true
  | _ => False

instance (p : Pool Lifecycle Call) (ev : Event CallKind Action) : Decidable (Outlives p ev) :=
  match ev with
  | .act _ (.run _) => inferInstanceAs (Decidable (_ ∧ _))
  | .act _ .drop | .act _ (.poll _) | .act _ .abort | .spawn _ => inferInstanceAs (Decidable False)

section Observed

variable {ops : Operations} {s s' : Lifecycle} {ts : List Call} {t t' : Call} {i : Nat}

theorem CallStep.observed_of (h : CallStep ops s t s' t') (ho : t'.Observed) :
    t.Observed ∨ t = .complete .ok := by
  cases h with
  | observe r =>
    cases ho.2
    exact .inr rfl
  | stray hlock hstart => cases ho.1
  | result r hr => cases ho.1
  | publish r next =>
    cases next with
    | complete r' => cases ho.1
    | waitActivation => cases ho.1
    | request next => exact .inl ho
  | publishClose next =>
    unfold Call.Observed at ho
    rw [next.observes_call, next.result?_call] at ho
    exact .inl ho
  | notPrepared next =>
    unfold Call.Observed at ho
    rw [next.observes_call, next.result?_call] at ho
    exact .inl ho
  | _ => exact .inl ho

theorem AfterRequest.cancels_call (n : AfterRequest) : n.call.cancels = 0 := by cases n <;> rfl

theorem AfterPublish.cancels_call (m : AfterPublish) : m.call.cancels = 0 := by
  cases m with
  | request n => exact n.cancels_call
  | _ => rfl

/-- A cancelled waiter requests the close only after it has read that nobody observed
the activation. -/
theorem CallStep.cancels_of (h : CallStep ops s t s' t') (hc : t'.cancels ≠ 0) :
    s.activationObserved = false := by
  cases h with
  | notObserved hobs => exact hobs
  | publishClose next => exact absurd next.cancels_call hc
  | notPrepared next => exact absurd next.cancels_call hc
  | _ => exact absurd rfl hc

theorem AfterRequest.call_ne_request (n m : AfterRequest) : n.call ≠ .request m := by
  cases n <;> exact nofun

theorem AfterPublish.call_ne_request (m : AfterPublish) (n : AfterRequest) :
    m.call ≠ .request n := by
  cases m with
  | request k => exact k.call_ne_request n
  | _ => exact nofun

/-- The close is requested for the last `Arc` by the call that has dropped it. -/
theorem CallStep.lastDrop_of (h : CallStep ops s t s' t') {e : CallEnd}
    (ht : t' = .request (.lastDrop e)) : t = .dropArc e ∧ s.owners = 1 := by
  cases h with
  | dropLast e' hlast =>
    cases ht
    exact ⟨rfl, hlast⟩
  | publishClose next => exact absurd ht (next.call_ne_request _)
  | notPrepared next => exact absurd ht (next.call_ne_request _)
  | _ => cases ht

/-- While somebody has observed the activation, no cancelled waiter requests the close. -/
def Settled (ts : List Call) : Prop := (∃ t ∈ ts, t.Observed) → total Call.cancels ts = 0

theorem Settled.step (h : Settled ts) (hinv : Inv s ts) (hi : ts[i]? = some t)
    (hs : CallStep ops s t s' t')
    (hcross : t = .complete .ok → Call.request .cancelledWaiter ∉ ts) : Settled (ts.set i t') := by
  have hmem := List.mem_of_getElem? hi
  rintro ⟨u, hu, ho⟩
  -- before the step somebody had observed the activation, or this call is about to
  have hold : (∃ u ∈ ts, u.Observed) ∨ t = .complete .ok := by
    rcases (mem_set_iff hi).mp hu with rfl | ⟨j, -, hj⟩
    · rcases hs.observed_of ho with hto | hcomplete
      · exact .inl ⟨t, hmem, hto⟩
      · exact .inr hcomplete
    · exact .inl ⟨u, List.mem_of_getElem? hj, ho⟩
  have hset := total_set Call.cancels hi t'
  rcases hold with hex | rfl
  · have hzero := h hex
    have ht' : t'.cancels = 0 := by
      by_contra hc
      obtain ⟨v, hv, hvo⟩ := hex
      have hpos := le_total (w := Call.observes) hv
      rw [hvo.1] at hpos
      have hobs := hinv.observed.mpr hpos
      rw [hs.cancels_of hc] at hobs
      cases hobs
    omega
  · have hzero : total Call.cancels ts = 0 := total_eq_zero_iff.mpr fun v hv => by
      cases v with
      | request n =>
        cases n with
        | cancelledWaiter => exact absurd hv (hcross rfl)
        | _ => rfl
      | _ => rfl
    have ht' : t'.cancels = 0 := by
      cases hs
      rfl
    omega

end Observed

theorem settled_run (ops : Operations) (es : List (Event CallKind Action))
    (h : ∀ before ev after, es = before ++ ev :: after →
      ¬ Crossing ((lifecycle ops).run before) ev) : Settled ((lifecycle ops).run es).threads := by
  refine ((lifecycle ops).invariant_of_steps (C := fun p ev => ¬ Crossing p ev)
    (I := fun p => Inv p.shared p.threads ∧ Settled p.threads) ?_ ?_ ?_ es h).2
  · exact ⟨.new, fun _ => rfl⟩
  · rintro p kind ⟨hinv, h⟩
    refine ⟨hinv.spawn kind, ?_⟩
    have hnew : kind.start.cancels = 0 ∧ kind.start.observes = 0 := by
      cases kind <;> exact ⟨rfl, rfl⟩
    rintro ⟨u, hu, ho⟩
    show total Call.cancels (p.threads ++ [kind.start]) = 0
    rw [total_concat, hnew.1]
    rcases List.mem_append.mp hu with hu | hu
    · exact h ⟨u, hu, ho⟩
    · rw [List.mem_singleton.mp hu] at ho
      exact absurd (hnew.2.symm.trans ho.1) (by decide)
  · rintro p i t a s' t' ⟨hinv, h⟩ hcross hi hn
    have hs := callStep_of_next hn
    refine ⟨hinv.step hi hs, h.step hinv hi hs ?_⟩
    rintro rfl hmem
    cases a with
    | run inRuntime => exact hcross ⟨hi, hmem⟩
    | _ => cases hn

/-- While no future outlives the last handle, it is a handle that drops the last `Arc`. -/
theorem lastDrop_run (ops : Operations) (es : List (Event CallKind Action))
    (h : ∀ before ev after, es = before ++ ev :: after →
      ¬ Outlives ((lifecycle ops).run before) ev) :
    ∀ e, Call.request (.lastDrop e) ∈ ((lifecycle ops).run es).threads → e = .done := by
  refine (lifecycle ops).invariant_of_steps (C := fun p ev => ¬ Outlives p ev)
    (I := fun p => ∀ e, Call.request (.lastDrop e) ∈ p.threads → e = .done) ?_ ?_ ?_ es h
  · exact fun e he => by cases he
  · intro p kind h e he
    rcases List.mem_append.mp he with he | he
    · exact h e he
    · cases kind <;> cases List.mem_singleton.mp he
  · intro p i t a s' t' h houtlives hi hn e he
    rcases (mem_set_iff hi).mp he with heq | ⟨j, -, hj⟩
    · obtain ⟨rfl, hlast⟩ := (callStep_of_next hn).lastDrop_of heq.symm
      by_contra hne
      cases a with
      | run inRuntime =>
        refine houtlives ⟨hlast, ?_⟩
        rw [hi]
        cases e <;> first | rfl | exact absurd rfl hne
      | _ => cases hn
    · exact h e (List.mem_of_getElem? hj)

theorem ended_run (ops : Operations) {es : List (Event CallKind Action)} {e : CallEnd}
    (h : Call.ended e ∈ ((lifecycle ops).run es).threads) (later : List (Event CallKind Action)) :
    Call.ended e ∈ ((lifecycle ops).run (es ++ later)).threads := by
  refine (lifecycle ops).stable (J := fun _ => True) (I := fun p => Call.ended e ∈ p.threads)
    (fun _ => trivial) ?_ ?_ h later
  · exact fun p kind _ hmem => List.mem_append_left _ hmem
  · intro p i t a s' t' _ hmem hi hn
    obtain ⟨j, hj⟩ := List.mem_iff_getElem?.mp hmem
    refine (mem_set_iff hi).mpr (.inr ⟨j, ?_, hj⟩)
    rintro rfl
    rw [hi] at hj
    cases hj
    cases a <;> cases hn

/-- The close request is made by a call that is at it. -/
theorem request_of_step {ops : Operations} {p : Pool Lifecycle Call} {ev : Event CallKind Action}
    (hno : p.shared.closeRequested = false)
    (hyes : ((lifecycle ops).step p ev).shared.closeRequested = true) :
    ∃ i a n, ev = .act i a ∧ p.threads[i]? = some (.request n) := by
  rcases (lifecycle ops).step_cases p ev with hs | ⟨kind, -, hs⟩ | ⟨i, a, t, s', t', rfl, hi, hn, hs⟩
  · rw [hs, hno] at hyes
    cases hyes
  · rw [hs] at hyes
    exact absurd (hno.symm.trans hyes) (by decide)
  · rw [hs] at hyes
    cases callStep_of_next hn with
    | request next => exact ⟨i, a, next, rfl, hi⟩
    | poll provided hw =>
      rw [(sameCalls_workerNext hw).closeRequested, hno] at hyes
      cases hyes
    | abort hw =>
      rw [(sameCalls_workerAbort hw).closeRequested, hno] at hyes
      cases hyes
    | _ => exact absurd (hno.symm.trans hyes) (by decide)

/-- **An observed activation is not undone by a cancellation**, as long as no waiter
completes between the check of a cancelled one and its request, and no future outlives the
last handle: once an activation has returned `Ok`, the close is requested only by `close`,
`request_close` or the drop of the last handle. -/
theorem observed_not_undone (ops : Operations) (es later : List (Event CallKind Action))
    (h : ∀ before ev after, es ++ later = before ++ ev :: after →
      ¬ Crossing ((lifecycle ops).run before) ev ∧ ¬ Outlives ((lifecycle ops).run before) ev)
    (hret : Call.ended (.activated .ok) ∈ ((lifecycle ops).run es).threads) :
    ∀ before ev after, later = before ++ ev :: after →
      Call.request .cancelledWaiter ∉ ((lifecycle ops).run (es ++ before)).threads ∧
      (((lifecycle ops).run (es ++ before)).shared.closeRequested = false →
        ((lifecycle ops).run (es ++ before ++ [ev])).shared.closeRequested = true →
        ∃ i a n, ev = .act i a ∧ (n = .waitClose ∨ n = .requested ∨ n = .lastDrop .done) ∧
          ((lifecycle ops).run (es ++ before)).threads[i]? = some (.request n)) := by
  rintro before ev after rfl
  have hsteps : ∀ b e a, es ++ before = b ++ e :: a →
      ¬ Crossing ((lifecycle ops).run b) e ∧ ¬ Outlives ((lifecycle ops).run b) e :=
    fun b e a heq => h b e (a ++ ev :: after) (by
      rw [← List.append_assoc, heq, List.append_assoc]
      rfl)
  have hsettled := settled_run ops (es ++ before) fun b e a heq => (hsteps b e a heq).1
  have hzero := hsettled ⟨_, ended_run ops hret before, rfl, rfl⟩
  have hnot : Call.request .cancelledWaiter ∉ ((lifecycle ops).run (es ++ before)).threads :=
    fun hmem => absurd (total_eq_zero_iff.mp hzero _ hmem) (by decide)
  refine ⟨hnot, fun hno hyes => ?_⟩
  rw [Threads.run_concat] at hyes
  obtain ⟨i, a, n, hev, hi⟩ := request_of_step hno hyes
  have hmem := List.mem_of_getElem? hi
  refine ⟨i, a, n, hev, ?_, hi⟩
  cases n with
  | waitClose => exact .inl rfl
  | requested => exact .inr (.inl rfl)
  | cancelledWaiter => exact absurd hmem hnot
  | lastDrop e =>
    obtain rfl := lastDrop_run ops (es ++ before) (fun b e a heq => (hsteps b e a heq).2) e hmem
    exact .inr (.inr rfl)

/-- Two activations wait, and the first one returns the success. -/
def oneReturns : List (Event CallKind Action) :=
  activationStarts ++ [.spawn .activate] ++ runs 2 3 ++ polls 4 ++ runs 0 4

theorem observed_not_undone_other :
    Call.request .cancelledWaiter ∉
      ((lifecycle prepareRegistration).run (oneReturns ++ ([.act 2 .drop] ++ runs 2 1))).threads := by
  have hsteps : ∀ before ev after, oneReturns ++ ([.act 2 .drop] ++ runs 2 2) =
      before ++ ev :: after → ¬ Crossing ((lifecycle prepareRegistration).run before) ev ∧
        ¬ Outlives ((lifecycle prepareRegistration).run before) ev :=
    forall_split_iff.mpr (by decide +kernel)
  have hret : Call.ended (.activated .ok) ∈
      ((lifecycle prepareRegistration).run oneReturns).threads := by
    decide +kernel
  have hsplit : ([.act 2 .drop] ++ runs 2 2 : List (Event CallKind Action)) =
      ([.act 2 .drop] ++ runs 2 1) ++ .act 2 (.run true) :: [] :=
    rfl
  have hall := observed_not_undone prepareRegistration oneReturns _ hsteps hret _ _ _ hsplit
  exact hall.1

/-- A waiter is cancelled after the activation has succeeded and before anybody has
observed it, and reads so. -/
def lateCancel : List (Event CallKind Action) :=
  activationStarts ++ polls 4 ++ [.act 0 .drop] ++ runs 0 2

/-- Another activation, thread 2, returns the success before that waiter goes on. -/
def crossed : List (Event CallKind Action) := lateCancel ++ [.spawn .activate] ++ runs 2 6

theorem observed_undone :
    ¬ ∀ es ev, Call.ended (.activated .ok) ∈ ((lifecycle prepareRegistration).run es).threads →
      ((lifecycle prepareRegistration).run es).shared.closeRequested = false →
      ((lifecycle prepareRegistration).run (es ++ [ev])).shared.closeRequested = true →
      ∃ i a n, ev = .act i a ∧ n ≠ .cancelledWaiter ∧
        ((lifecycle prepareRegistration).run es).threads[i]? = some (.request n) := by
  intro h
  obtain ⟨i, a, n, hev, hn, hi⟩ := h crossed (.act 0 (.run true))
    (by decide +kernel) (by decide +kernel) (by decide +kernel)
  cases hev
  have hat : ((lifecycle prepareRegistration).run crossed).threads[0]? =
      some (.request .cancelledWaiter) := by
    decide +kernel
  rw [hat] at hi
  cases hi
  exact hn rfl

/-- The last handle is dropped after the first activation has returned, and then the other
one is cancelled. -/
def outlived : List (Event CallKind Action) :=
  oneReturns ++ [.spawn .dropHandle] ++ runs 3 2 ++ [.act 2 .drop] ++ runs 2 3

/-- That cancellation requests the close as well, with the last `Arc`. -/
theorem outlived_requests :
    ((lifecycle prepareRegistration).run outlived).threads[2]? =
        some (.request (.lastDrop .cancelled)) ∧
      ((lifecycle prepareRegistration).run outlived).shared.closeRequested = false ∧
      ((lifecycle prepareRegistration).run (outlived ++ runs 2 1)).shared.closeRequested = true := by
  decide +kernel

end Fusen.Register
