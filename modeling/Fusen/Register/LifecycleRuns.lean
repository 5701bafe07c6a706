import Fusen.Register.LifecycleSteps

/-!
# Runs of a lifecycle

`Inv` accounts for the lock, the two results, the close request, the waiters and
the owners in every interleaving.
-/

namespace Fusen.Register

open Lib Fusen.Runtime

/-! ## Who has published what -/

/-- How often the activation result has been sent, once the call with the lock is done. -/
def Lifecycle.activationDue (s : Lifecycle) : Nat :=
  match s.start with
  | .prepared => 0
  | .started => s.worker.phase.activationSent
  | .finished => 1

def Lifecycle.closeDue (s : Lifecycle) : Nat :=
  match s.start with
  | .prepared => 0
  | .started => s.worker.phase.closeSent
  | .finished => 1

/-- The lock, the start state, the worker and the two results fit together, where `p`
calls prepare, `q` publish the activation result and `c` the close result. -/
structure Published (s : Lifecycle) (p q c : Nat) : Prop where
  locked : s.locked.toNat = p + q + c
  preparing : s.start ≠ .prepared → p = 0
  publishing : s.start ≠ .finished → q + c = 0
  absent : s.worker.phase = .absent ↔ s.start ≠ .started
  activation : s.activationResult.version + q = s.activationDue
  close : s.closeResult.version + q + c = s.closeDue
  activationValue : s.activationResult.value.isSome ↔ s.activationResult.version ≠ 0
  closeValue : s.closeResult.value.isSome ↔ s.closeResult.version ≠ 0

namespace Published

variable {ops : Operations} {s s' : Lifecycle} {t t' : Call} {p q c p' q' c' : Nat}

theorem new : Published .new 0 0 0 := by
  constructor <;> simp [Lifecycle.new, Lifecycle.activationDue, Lifecycle.closeDue]

/-- The step of a call that leaves the lock, the start state, the worker and the
results alone. -/
theorem same (h : Published s p q c) (hlocked : s'.locked = s.locked)
    (hstart : s'.start = s.start) (hworker : s'.worker = s.worker)
    (hactivation : s'.activationResult = s.activationResult)
    (hclose : s'.closeResult = s.closeResult) : Published s' p q c := by
  have hdue : s'.activationDue = s.activationDue := by
    simp only [Lifecycle.activationDue, hstart, hworker]
  have hdue' : s'.closeDue = s.closeDue := by simp only [Lifecycle.closeDue, hstart, hworker]
  constructor
  · rw [hlocked]; exact h.locked
  · rw [hstart]; exact h.preparing
  · rw [hstart]; exact h.publishing
  · rw [hstart, hworker]; exact h.absent
  · rw [hactivation, hdue]; exact h.activation
  · rw [hclose, hdue']; exact h.close
  · rw [hactivation]; exact h.activationValue
  · rw [hclose]; exact h.closeValue

/-- A step of the worker. -/
theorem worker (h : Published s p q c) (hsame : SameCalls s s') (hsends : SendsByPhase s s') :
    Published s' p q c := by
  have hstarted : s.start = .started := by
    by_contra hne
    exact hsends.present (h.absent.mpr hne)
  have hactivation := h.activation
  have hclose := h.close
  have := hsends.activation
  have := hsends.close
  have hdue : s.activationDue = s.worker.phase.activationSent := by
    simp only [Lifecycle.activationDue, hstarted]
  have hdue' : s.closeDue = s.worker.phase.closeSent := by
    simp only [Lifecycle.closeDue, hstarted]
  constructor
  · rw [hsame.locked]; exact h.locked
  · rw [hsame.start]; exact h.preparing
  · rw [hsame.start]; exact h.publishing
  · rw [hsame.start, hstarted]
    simp [hsends.present']
  · simp only [Lifecycle.activationDue, hsame.start, hstarted]
    omega
  · simp only [Lifecycle.closeDue, hsame.start, hstarted]
    omega
  · rcases hsends.activationValue with heq | ⟨r, heq⟩
    · rw [heq]; exact h.activationValue
    · simp [heq]
  · rcases hsends.closeValue with heq | ⟨r, heq⟩
    · rw [heq]; exact h.closeValue
    · simp [heq]

/-- A call finds the lifecycle prepared and takes the lock to finish it. -/
theorem finished (h : Published s 0 0 0) (hstart : s.start = .prepared) :
    Published { s with locked := true, start := .finished } 0 1 0 := by
  have hactivation := h.activation
  have hclose := h.close
  simp only [Lifecycle.activationDue, Lifecycle.closeDue, hstart] at hactivation hclose
  refine ⟨rfl, fun _ => rfl, fun hne => absurd rfl hne, ?_, ?_, ?_, h.activationValue,
    h.closeValue⟩
  · exact h.absent.trans (by simp [hstart])
  · show s.activationResult.version + 1 = 1
    omega
  · show s.closeResult.version + 1 + 0 = 1
    omega

theorem step (h : Published s p q c) (hs : CallStep ops s t s' t')
    (hp : p' + t.prepares = p + t'.prepares) (hq : q' + t.publishes = q + t'.publishes)
    (hc : c' + t.publishesClose = c + t'.publishesClose) : Published s' p' q' c' := by
  have hlocked := h.locked
  have hle := Bool.toNat_le s.locked
  have hactivation := h.activation
  have hclose := h.close
  cases hs with
  | lockPrepared hlock hstart =>
    rw [hlock, Bool.toNat_false] at hlocked
    obtain ⟨rfl, rfl, rfl⟩ : p = 0 ∧ q = 0 ∧ c = 0 := by omega
    obtain ⟨rfl, rfl, rfl⟩ : p' = 1 ∧ q' = 0 ∧ c' = 0 := ⟨hp, hq, hc⟩
    exact ⟨rfl, fun hne => absurd hstart hne, h.publishing, h.absent, hactivation, hclose,
      h.activationValue, h.closeValue⟩
  | closedBefore hreq =>
    simp only [Call.prepares, Call.publishes, Call.publishesClose] at hp hq hc
    obtain ⟨rfl, rfl, rfl⟩ : p = 1 ∧ q = 0 ∧ c = 0 := by omega
    obtain ⟨rfl, rfl, rfl⟩ : p' = 0 ∧ q' = 1 ∧ c' = 0 := by omega
    have hstart : s.start = .prepared := by
      by_contra hne
      exact absurd (h.preparing hne) (by decide)
    simp only [Lifecycle.activationDue, Lifecycle.closeDue, hstart] at hactivation hclose
    refine ⟨hlocked, fun _ => rfl, fun hne => absurd rfl hne, ?_, ?_, ?_, h.activationValue,
      h.closeValue⟩
    · exact h.absent.trans (by simp [hstart])
    · show s.activationResult.version + 1 = 1
      omega
    · show s.closeResult.version + 1 + 0 = 1
      omega
  | spawn =>
    simp only [Call.prepares, Call.publishes, Call.publishesClose] at hp hq hc
    obtain ⟨rfl, rfl, rfl⟩ : p = 1 ∧ q = 0 ∧ c = 0 := by omega
    obtain ⟨rfl, rfl, rfl⟩ : p' = 0 ∧ q' = 0 ∧ c' = 0 := by omega
    have hstart : s.start = .prepared := by
      by_contra hne
      exact absurd (h.preparing hne) (by decide)
    simp only [Lifecycle.activationDue, Lifecycle.closeDue, hstart] at hactivation hclose
    exact ⟨rfl, fun _ => rfl, fun _ => rfl, by simp, hactivation, hclose, h.activationValue,
      h.closeValue⟩
  | finish hlock hstart =>
    rw [hlock, Bool.toNat_false] at hlocked
    obtain ⟨rfl, rfl, rfl⟩ : p = 0 ∧ q = 0 ∧ c = 0 := by omega
    obtain ⟨rfl, rfl, rfl⟩ : p' = 0 ∧ q' = 1 ∧ c' = 0 := ⟨hp, hq, hc⟩
    exact h.finished hstart
  | finishPrepared next hlock hstart =>
    rw [hlock, Bool.toNat_false] at hlocked
    obtain ⟨rfl, rfl, rfl⟩ : p = 0 ∧ q = 0 ∧ c = 0 := by omega
    obtain ⟨rfl, rfl, rfl⟩ : p' = 0 ∧ q' = 1 ∧ c' = 0 := ⟨hp, hq, hc⟩
    exact h.finished hstart
  | publish r next =>
    simp only [Call.prepares, Call.publishes, Call.publishesClose] at hp hq hc
    obtain ⟨rfl, rfl, rfl⟩ : p = 0 ∧ q = 1 ∧ c = 0 := by omega
    obtain ⟨rfl, rfl, rfl⟩ : p' = 0 ∧ q' = 0 ∧ c' = 1 := by omega
    refine ⟨hlocked, h.preparing, fun hne => absurd (h.publishing hne) (by decide), h.absent,
      hactivation, hclose, ?_, h.closeValue⟩
    simp
  | publishClose next =>
    rw [next.free.prepares] at hp
    rw [next.free.publishes] at hq
    rw [next.free.publishesClose] at hc
    simp only [Call.prepares, Call.publishes, Call.publishesClose] at hp hq hc
    obtain ⟨rfl, rfl, rfl⟩ : p = 0 ∧ q = 0 ∧ c = 1 := by omega
    obtain ⟨rfl, rfl, rfl⟩ : p' = 0 ∧ q' = 0 ∧ c' = 0 := by omega
    refine ⟨rfl, h.preparing, fun hne => absurd (h.publishing hne) (by decide), h.absent,
      hactivation, hclose, h.activationValue, ?_⟩
    simp
  | notPrepared next hstart =>
    rw [next.free.prepares] at hp
    rw [next.free.publishes] at hq
    rw [next.free.publishesClose] at hc
    obtain rfl : p' = p := hp
    obtain rfl : q' = q := hq
    obtain rfl : c' = c := hc
    exact h
  | poll provided hw =>
    obtain rfl : p' = p := hp
    obtain rfl : q' = q := hq
    obtain rfl : c' = c := hc
    exact h.worker (sameCalls_workerNext hw) (sendsByPhase_workerNext hw)
  | abort hw =>
    obtain rfl : p' = p := hp
    obtain rfl : q' = q := hq
    obtain rfl : c' = c := hc
    exact h.worker (sameCalls_workerAbort hw) (sendsByPhase_workerAbort hw)
  | _ =>
    obtain rfl : p' = p := by simpa [Call.prepares] using hp
    obtain rfl : q' = q := by simpa [Call.publishes] using hq
    obtain rfl : c' = c := by simpa [Call.publishesClose] using hc
    exact h.same rfl rfl rfl rfl rfl

end Published

/-! ## Waiters, owners and the close request -/

/-- What every interleaving keeps. -/
structure Inv (s : Lifecycle) (ts : List Call) : Prop where
  published : Published s (total Call.prepares ts) (total Call.publishes ts)
    (total Call.publishesClose ts)
  done : s.WorkerDone
  seen : s.worker.seen ≤ s.closeRequest.version
  sends : s.closeRequest.version + total Call.sends ts = s.closeRequested.toNat
  requestValue : s.closeRequest.value = true ↔ s.closeRequest.version ≠ 0
  waits : s.activationWaiters = total Call.waits ts
  owns : s.owners = s.handles + total Call.owns ts
  observed : s.activationObserved = true ↔ 0 < total Call.observes ts
  asked : s.start = .started → s.activationWaiters = 0 → s.activationObserved = false →
    s.closeRequested = false → 0 < total Call.asks ts
  ownerless : s.owners = 0 → s.closeRequested = false → 0 < total Call.requests ts

namespace Inv

variable {ops : Operations} {s s' : Lifecycle} {ts : List Call} {t t' : Call} {i : Nat}

theorem new : Inv .new [] where
  published := .new
  done := ⟨rfl, rfl, rfl⟩
  seen := Nat.le_refl _
  sends := rfl
  requestValue := by simp [Lifecycle.new]
  waits := rfl
  owns := rfl
  observed := by simp [Lifecycle.new]
  asked := nofun
  ownerless := nofun

theorem spawn (h : Inv s ts) (kind : CallKind) : Inv s (ts ++ [kind.start]) := by
  have hnew : kind.start.prepares = 0 ∧ kind.start.publishes = 0 ∧
      kind.start.publishesClose = 0 ∧ kind.start.sends = 0 ∧ kind.start.waits = 0 ∧
      kind.start.owns = 0 ∧ kind.start.observes = 0 ∧ kind.start.asks = 0 ∧
      kind.start.requests = 0 := by
    cases kind <;> exact ⟨rfl, rfl, rfl, rfl, rfl, rfl, rfl, rfl, rfl⟩
  obtain ⟨hp, hq, hc, hs, hw, ho, hb, ha, hr⟩ := hnew
  refine ⟨?_, h.done, h.seen, ?_, h.requestValue, ?_, ?_, ?_, ?_, ?_⟩
  · rw [total_concat, total_concat, total_concat, hp, hq, hc]
    exact h.published
  · rw [total_concat, hs]
    exact h.sends
  · rw [total_concat, hw]
    exact h.waits
  · rw [total_concat, ho]
    exact h.owns
  · rw [total_concat, hb]
    exact h.observed
  · rw [total_concat, ha]
    exact h.asked
  · rw [total_concat, hr]
    exact h.ownerless

/-- The request channel changes only by the call that sends. -/
theorem closeRequest_of_step (hs : CallStep ops s t s' t') :
    s'.closeRequest = s.closeRequest ∨ s'.closeRequest = s.closeRequest.sendReplace true := by
  cases hs with
  | send next => exact .inr rfl
  | poll provided hw => exact .inl (sameCalls_workerNext hw).closeRequest
  | abort hw => exact .inl (sameCalls_workerAbort hw).closeRequest
  | _ => exact .inl rfl

theorem done_of_step (h : Inv s ts) (hs : CallStep ops s t s' t')
    (habsent : t = .spawnWorker → s.worker.phase = .absent) :
    s'.WorkerDone ∧ s'.worker.seen ≤ s'.closeRequest.version := by
  have hdone := h.done
  have hseen := h.seen
  cases hs with
  | spawn =>
    have hphase := habsent rfl
    simp only [Lifecycle.WorkerDone, hphase] at hdone
    exact ⟨⟨rfl, hdone.2⟩, Nat.le_refl _⟩
  | poll provided hw =>
    have hsame := sameCalls_workerNext hw
    refine ⟨workerDone_workerNext hw hdone hseen fun hv => ?_, ?_⟩
    · by_contra hne
      rw [h.requestValue.mpr hne] at hv
      cases hv
    · rw [hsame.seen, hsame.closeRequest]
      exact hseen
  | abort hw =>
    have hsame := sameCalls_workerAbort hw
    refine ⟨workerDone_workerAbort hw hdone, ?_⟩
    rw [hsame.seen, hsame.closeRequest]
    exact hseen
  | send next => exact ⟨hdone, Nat.le_succ_of_le hseen⟩
  | _ => exact ⟨hdone, hseen⟩

/-- When the last waiter has gone, someone asks for the close or has asked. -/
theorem asked_of_step (h : Inv s ts) (hi : ts[i]? = some t) (hs : CallStep ops s t s' t')
    (hstart : s'.start = .started) (hwaits : s'.activationWaiters = 0)
    (hobs : s'.activationObserved = false) (hreq : s'.closeRequested = false) :
    0 < total Call.asks (ts.set i t') := by
  have hmem := List.mem_of_getElem? hi
  have hset := total_set Call.asks hi t'
  have hw := le_total (w := Call.waits) hmem
  rw [← h.waits] at hw
  have hold := h.asked
  cases hs with
  | spawn => exact absurd hwaits (by simp only [Call.waits] at hw; exact Nat.ne_of_gt hw)
  | releaseLast hlast =>
    simp only [Call.asks] at hset
    omega
  | releaseOther hother =>
    simp only [Call.waits] at hw
    dsimp only at hwaits
    omega
  | release r =>
    have hpos := le_total (w := Call.observes) hmem
    have := h.observed.mpr (Nat.lt_of_lt_of_le Nat.zero_lt_one hpos)
    rw [hobs] at this
    cases this
  | observed hobs' =>
    rw [hobs] at hobs'
    cases hobs'
  | requestedBefore next hreq' =>
    rw [hreq] at hreq'
    cases hreq'
  | request next => cases hreq
  | publishClose next =>
    rw [next.free.asks] at hset
    have := hold hstart hwaits hobs hreq
    simp only [Call.asks] at hset
    omega
  | notPrepared next =>
    rw [next.free.asks] at hset
    have := hold hstart hwaits hobs hreq
    simp only [Call.asks] at hset
    omega
  | poll provided hw' =>
    have hsame := sameCalls_workerNext hw'
    rw [hsame.start] at hstart
    rw [hsame.activationWaiters] at hwaits
    rw [hsame.activationObserved] at hobs
    rw [hsame.closeRequested] at hreq
    have := hold hstart hwaits hobs hreq
    omega
  | abort hw' =>
    have hsame := sameCalls_workerAbort hw'
    rw [hsame.start] at hstart
    rw [hsame.activationWaiters] at hwaits
    rw [hsame.activationObserved] at hobs
    rw [hsame.closeRequested] at hreq
    have := hold hstart hwaits hobs hreq
    omega
  | activate => exact absurd hwaits (Nat.succ_ne_zero _)
  | closedBefore => cases hstart
  | finish => cases hstart
  | finishPrepared => cases hstart
  | observe => cases hobs
  | _ =>
    have := hold hstart hwaits hobs hreq
    simp only [Call.asks] at hset
    omega

/-- When the last owner has gone, its drop requests the close. -/
theorem ownerless_of_step (h : Inv s ts) (hi : ts[i]? = some t) (hs : CallStep ops s t s' t')
    (howners : s'.owners = 0) (hreq : s'.closeRequested = false) :
    0 < total Call.requests (ts.set i t') := by
  have hmem := List.mem_of_getElem? hi
  have hset := total_set Call.requests hi t'
  have ho := le_total (w := Call.owns) hmem
  have howns := h.owns
  have hold := h.ownerless
  cases hs with
  | activate => exact absurd howners (Nat.succ_ne_zero _)
  | close => exact absurd howners (Nat.succ_ne_zero _)
  | requestClose => exact absurd howners (Nat.succ_ne_zero _)
  | clone => exact absurd howners (Nat.succ_ne_zero _)
  | dropLast e hlast =>
    simp only [Call.requests] at hset
    omega
  | drop e hother =>
    simp only [Call.owns] at ho
    dsimp only at howners
    omega
  | requestedBefore next hreq' =>
    rw [hreq] at hreq'
    cases hreq'
  | request next => cases hreq
  | publishClose next =>
    rw [next.free.requests] at hset
    have := hold howners hreq
    simp only [Call.requests] at hset
    omega
  | notPrepared next =>
    rw [next.free.requests] at hset
    have := hold howners hreq
    simp only [Call.requests] at hset
    omega
  | poll provided hw =>
    have hsame := sameCalls_workerNext hw
    rw [hsame.owners] at howners
    rw [hsame.closeRequested] at hreq
    have := hold howners hreq
    omega
  | abort hw =>
    have hsame := sameCalls_workerAbort hw
    rw [hsame.owners] at howners
    rw [hsame.closeRequested] at hreq
    have := hold howners hreq
    omega
  | _ =>
    have := hold howners hreq
    simp only [Call.requests] at hset
    omega

theorem step (h : Inv s ts) (hi : ts[i]? = some t) (hs : CallStep ops s t s' t') :
    Inv s' (ts.set i t') := by
  have hmem := List.mem_of_getElem? hi
  have hp := le_total (w := Call.prepares) hmem
  have hw := le_total (w := Call.waits) hmem
  have ho := le_total (w := Call.owns) hmem
  have hsends := total_set Call.sends hi t'
  have hwaits := total_set Call.waits hi t'
  have howns := total_set Call.owns hi t'
  have hobserves := total_set Call.observes hi t'
  have habsent : t = .spawnWorker → s.worker.phase = .absent := by
    rintro rfl
    refine h.published.absent.mpr fun hstarted => ?_
    have := h.published.preparing (by simp [hstarted])
    simp only [Call.prepares] at hp
    omega
  obtain ⟨hdone, hseen⟩ := h.done_of_step hs habsent
  refine ⟨?_, hdone, hseen, ?_, ?_, ?_, ?_, ?_, h.asked_of_step hi hs, h.ownerless_of_step hi hs⟩
  · exact h.published.step hs (total_set Call.prepares hi t') (total_set Call.publishes hi t')
      (total_set Call.publishesClose hi t')
  · have := hs.sends
    have := h.sends
    omega
  · rcases closeRequest_of_step hs with heq | heq
    · rw [heq]
      exact h.requestValue
    · simp [heq]
  · have hle : t.waits ≤ s.activationWaiters := by rw [h.waits]; exact hw
    have := hs.waits hle
    have := h.waits
    omega
  · have hle : s.handles + t.owns ≤ s.owners := by rw [h.owns]; omega
    have := hs.owns hle
    have := h.owns
    omega
  · rcases hs.observes with ⟨heq, hobs⟩ | ⟨hone, hzero, hobs⟩
    · rw [hobs, h.observed]
      omega
    · rw [hobs]
      simp only [true_iff]
      omega

end Inv

theorem inv_run (ops : Operations) (es : List (Event CallKind Action)) :
    Inv ((lifecycle ops).run es).shared ((lifecycle ops).run es).threads :=
  (lifecycle ops).invariant (I := fun p => Inv p.shared p.threads) .new
    (fun _ kind h => h.spawn kind) (fun _ _ _ _ _ _ h hi hn => h.step hi (callStep_of_next hn)) es

end Fusen.Register
