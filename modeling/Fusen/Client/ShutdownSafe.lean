import Fusen.Client.ShutdownParties

/-!
# The shutdown of a client is safe

The results about all runs of a client, whatever its callers, its registry and the clock do:

* `pool_kept`: admitted work keeps access to the pool until it has drained or is cancelled.
* `shutdown_advances`: what is published only advances.
* `closed_for_good`: the shared result says what the shutdown has left.
-/

namespace Fusen.Client

open Lib Register Fusen.Runtime

namespace ClientRuntime

variable {κ : Type} [LinearOrder κ] {setup : Setup} {s s' : ClientRuntime κ}

/-! ## The result -/

/-- What a result says of the gate, the subscriptions and the cancellation. -/
def Settles (s : ClientRuntime κ) (result : Except ClientError Unit) : Prop :=
  s.forceCancel = false ∧ GateEmpty s.admission ∧
    subscriptionsResult s.subscriptions = some result ∨
  s.forceCancel = true ∧ result = .error deadlineElapsed

/-- What `closed` has come to. -/
def Waits (subscriptions : Option (SubscriptionManager κ)) : Closing κ → Prop
  | .collecting => True
  | .waiting keys => ∃ manager, subscriptions = some manager ∧ keys = manager.collect
  | .done result => subscriptionsResult subscriptions = some result

/-- What holds of the cells and the subscriptions, where the coordinator stands. -/
def Stands (s : ClientRuntime κ) : Prop :=
  match s.coordinator with
  | .waiting | .storing =>
    s.state = .running ∧ s.transport = true ∧ s.forceCancel = false ∧ s.completion = none
  | .beginning | .closing _ | .subscribing =>
    s.state = .draining ∧ s.transport = true ∧ s.forceCancel = false ∧ s.completion = none
  | .joining =>
    s.state = .draining ∧ s.transport = true ∧ s.forceCancel = false ∧ s.completion = none ∧
      Unsubscribed s.subscriptions
  | .working drained closing =>
    s.state = .draining ∧ s.transport = drained.isSome ∧ s.forceCancel = false ∧
      s.completion = none ∧ Unsubscribed s.subscriptions ∧ Waits s.subscriptions closing
  | .forcing =>
    s.state = .draining ∧ s.forceCancel = false ∧ s.completion = none ∧
      Unsubscribed s.subscriptions
  | .dropping =>
    s.state = .draining ∧ s.forceCancel = true ∧ s.completion = none ∧
      Unsubscribed s.subscriptions
  | .finishing result | .closingGate _ result | .storingClosed result =>
    s.state = .draining ∧ s.transport = false ∧ s.completion = none ∧
      Unsubscribed s.subscriptions ∧ Settles s result
  | .completing result =>
    s.state = .closed ∧ s.transport = false ∧ s.completion = none ∧
      Unsubscribed s.subscriptions ∧ Settles s result
  | .finished =>
    s.state = .closed ∧ s.transport = false ∧ Unsubscribed s.subscriptions ∧
      ∃ result, s.completion = some result ∧ Settles s result

theorem Waits.step {closing : Closing κ} (h : Waits s.subscriptions closing)
    (hstep : Step setup s s') (hclosed : Unsubscribed s.subscriptions) :
    Waits s'.subscriptions closing := by
  cases closing with
  | collecting => trivial
  | waiting keys =>
    obtain ⟨m, hm, rfl⟩ := h
    obtain ⟨m', hm', hmoves⟩ := subscriptions_of_step hstep hm (hclosed m hm)
    exact ⟨m', hm', hmoves.collect.symm⟩
  | done result => exact subscriptionsResult_of_step hstep hclosed h

theorem Settles.step {result : Except ClientError Unit} (h : Settles s result)
    (hstep : Step setup s s') (hgate : GateRun setup.maxInFlight s.admission)
    (hclosed : Unsubscribed s.subscriptions) (hforce : s'.forceCancel = s.forceCancel) :
    Settles s' result := by
  unfold Settles
  rw [hforce]
  refine h.imp_left fun ⟨hforced, hempty, hresult⟩ => ⟨hforced, ?_, ?_⟩
  · exact hgate.empty (gateMoves_of_step hstep) hempty
  · exact subscriptionsResult_of_step hstep hclosed hresult

/-- A step that leaves the coordinator and the cells alone. -/
theorem stands_of_other (hstep : Step setup s s') (hgate : GateRun setup.maxInFlight s.admission)
    (h : Stands s) (hcoordinator : s'.coordinator = s.coordinator) (hstate : s'.state = s.state)
    (htransport : s'.transport = s.transport) (hforce : s'.forceCancel = s.forceCancel)
    (hcompletion : s'.completion = s.completion) : Stands s' := by
  unfold Stands at h ⊢
  rw [hcoordinator, hstate, htransport, hforce, hcompletion]
  have hclosed := @unsubscribed_of_step κ _ setup s s' hstep
  cases hc : s.coordinator with
  | waiting | storing | beginning | closing | subscribing =>
    rw [hc] at h
    exact h
  | joining =>
    rw [hc] at h
    obtain ⟨h₁, h₂, h₃, h₄, hunsubscribed⟩ := h
    exact ⟨h₁, h₂, h₃, h₄, hclosed hunsubscribed⟩
  | working drained closing =>
    rw [hc] at h
    obtain ⟨h₁, h₂, h₃, h₄, hunsubscribed, hwaits⟩ := h
    exact ⟨h₁, h₂, h₃, h₄, hclosed hunsubscribed, hwaits.step hstep hunsubscribed⟩
  | forcing | dropping =>
    rw [hc] at h
    obtain ⟨h₁, h₂, h₃, hunsubscribed⟩ := h
    exact ⟨h₁, h₂, h₃, hclosed hunsubscribed⟩
  | finishing | closingGate | storingClosed | completing =>
    rw [hc] at h
    obtain ⟨h₁, h₂, h₃, hunsubscribed, hsettles⟩ := h
    exact ⟨h₁, h₂, h₃, hclosed hunsubscribed, hsettles.step hstep hgate hunsubscribed hforce⟩
  | finished =>
    rw [hc] at h
    obtain ⟨h₁, h₂, hunsubscribed, result, h₃, hsettles⟩ := h
    exact ⟨h₁, h₂, hclosed hunsubscribed, result, h₃,
      hsettles.step hstep hgate hunsubscribed hforce⟩

/-- `closed` takes what it takes from the subscriptions. -/
theorem waits_of_pollClosing {closing closing' : Closing κ}
    (h : s.pollClosing closing = some closing') (hwaits : Waits s.subscriptions closing) :
    Waits s.subscriptions closing' := by
  unfold pollClosing at h
  cases closing with
  | done result => cases h
  | collecting =>
    cases hm : s.subscriptions with
    | none =>
      rw [hm] at h
      cases h
      rfl
    | some m =>
      rw [hm] at h
      cases h
      exact ⟨m, rfl, rfl⟩
  | waiting keys =>
    obtain ⟨m, hm, rfl⟩ := hwaits
    rw [hm] at h ⊢
    dsimp only at h
    obtain ⟨outcomes, houtcomes, rfl⟩ := Option.map_eq_some_iff.mp h
    show (m.joinAll m.collect).map closedResult = _
    rw [houtcomes]
    rfl

omit [LinearOrder κ] in
theorem unsubscribed_beginShutdown (subscriptions : Option (SubscriptionManager κ)) :
    Unsubscribed (subscriptions.map SubscriptionManager.beginShutdown) := by
  intro m hm
  obtain ⟨m₀, -, rfl⟩ := Option.map_eq_some_iff.mp hm
  rfl

theorem stands_of_step (hstep : Step setup s s') (hgate : GateRun setup.maxInFlight s.admission)
    (hgated : Gated s.admission s.coordinator) (h : Stands s) : Stands s' := by
  have hother := stands_of_other hstep hgate h
  unfold Stands at h
  cases hstep with
  | starts hc =>
    rw [hc] at h
    exact h
  | stores hc =>
    rw [hc] at h
    exact ⟨rfl, h.2⟩
  | gateClosed hc =>
    rw [hc] at h
    exact h
  | begins hc =>
    rw [hc] at h
    exact h
  | subscriptionsClose hc =>
    rw [hc] at h
    obtain ⟨h₁, h₂, h₃, h₄⟩ := h
    exact ⟨h₁, h₂, h₃, h₄, unsubscribed_beginShutdown _⟩
  | joins hc =>
    rw [hc] at h
    obtain ⟨h₁, h₂, h₃, h₄, hunsubscribed⟩ := h
    exact ⟨h₁, h₂, h₃, h₄, hunsubscribed, trivial⟩
  | poolCloses hc =>
    rw [hc] at h
    obtain ⟨h₁, -, h₃⟩ := h
    exact ⟨h₁, rfl, h₃⟩
  | closingMoves hc hclosing =>
    rw [hc] at h
    obtain ⟨h₁, h₂, h₃, h₄, hunsubscribed, hwaits⟩ := h
    exact ⟨h₁, h₂, h₃, h₄, hunsubscribed, waits_of_pollClosing hclosing hwaits⟩
  | worked hc =>
    rw [hc] at h hgated
    obtain ⟨h₁, h₂, h₃, h₄, hunsubscribed, hresult⟩ := h
    exact ⟨h₁, h₂, h₄, hunsubscribed, .inl ⟨h₃, hgated.2, hresult⟩⟩
  | late hc | lateClosing hc =>
    rw [hc] at h
    obtain ⟨h₁, -, h₃, h₄, hunsubscribed, -⟩ := h
    exact ⟨h₁, h₃, h₄, hunsubscribed⟩
  | forces hc =>
    rw [hc] at h
    obtain ⟨h₁, -, h₃⟩ := h
    exact ⟨h₁, rfl, h₃⟩
  | drops hc =>
    rw [hc] at h
    obtain ⟨h₁, hforced, h₃, hunsubscribed⟩ := h
    exact ⟨h₁, rfl, h₃, hunsubscribed, .inr ⟨hforced, rfl⟩⟩
  | finishes hc =>
    rw [hc] at h
    obtain ⟨h₁, h₂, h₃, hunsubscribed, hsettles⟩ := h
    exact ⟨h₁, h₂, h₃, hunsubscribed, hsettles.step (.finishes hc) hgate hunsubscribed rfl⟩
  | gateEnded hc =>
    rw [hc] at h
    exact h
  | storesClosed hc =>
    rw [hc] at h
    exact ⟨rfl, h.2⟩
  | completes hc =>
    rw [hc] at h
    obtain ⟨h₁, h₂, -, hunsubscribed, hsettles⟩ := h
    exact ⟨h₁, h₂, hunsubscribed, _, rfl, hsettles⟩
  | _ => exact hother rfl rfl rfl rfl rfl

theorem stands_run (es : List (ClientEvent κ)) : Stands ((client setup).run es) :=
  invariant (I := Stands)
    (J := fun s => GateRun setup.maxInFlight s.admission ∧ Gated s.admission s.coordinator)
    (fun es => ⟨gateRun_run es, gated_run es⟩) ⟨rfl, rfl, rfl, rfl⟩
    (fun _ _ ⟨hgate, hgated⟩ hstep h => stands_of_step hstep hgate hgated h) es

/-! ## The pool -/

/-- The pool is closed behind the last admitted invocation, or after the cancellation of all of
them. -/
structure PoolKept (s : ClientRuntime κ) : Prop where
  closed : s.transport = false → s.forceCancel = true ∨ GateEmpty s.admission
  given : ∀ access ∈ s.accesses, access.cancelled = false → access.given = true

theorem forceCancel_of_step (hstep : Step setup s s') (h : s.forceCancel = true) :
    s'.forceCancel = true := by
  cases hstep <;> first | exact h | rfl

theorem transport_of_step (hstep : Step setup s s') (hgated : Gated s.admission s.coordinator)
    (hstands : Stands s) (h : s'.transport = false) :
    s.transport = false ∨ s.forceCancel = true ∨ GateEmpty s.admission := by
  cases hstep with
  | poolCloses hc hreturned =>
    rw [hc] at hgated
    exact .inr (.inr (hgated.2.gateEmpty (returned_of hreturned)))
  | drops hc =>
    unfold Stands at hstands
    rw [hc] at hstands
    exact .inr (.inl hstands.2.1)
  | _ => exact .inl h

theorem poolKept_of_step (hstep : Step setup s s') (hgate : GateRun setup.maxInFlight s.admission)
    (hgated : Gated s.admission s.coordinator) (hstands : Stands s) (h : PoolKept s) :
    PoolKept s' := by
  constructor
  · intro hclosed
    have hbefore : s.forceCancel = true ∨ GateEmpty s.admission := by
      rcases transport_of_step hstep hgated hstands hclosed with hclosed | hbefore
      · exact h.closed hclosed
      · exact hbefore
    rcases hbefore with hforced | hempty
    · exact .inl (forceCancel_of_step hstep hforced)
    · exact .inr (hgate.empty (gateMoves_of_step hstep) hempty)
  · cases hstep with
    | accessed hcall =>
      intro access hmem hcancelled
      rcases List.mem_append.mp hmem with hmem | hmem
      · exact h.given access hmem hcancelled
      · obtain rfl := List.mem_singleton.mp hmem
        by_contra hgiven
        rcases h.closed (Bool.eq_false_iff.mpr hgiven) with hforced | hempty
        · rw [hforced] at hcancelled
          cases hcancelled
        · exact hempty.not_guard trivial hcall
    | _ => exact h.given

/-! ## What advances -/

/-- The state only advances, what was sent or closed stays so, and once the subscriptions are
closed their slots stay the same. -/
structure Advances (s s' : ClientRuntime κ) : Prop where
  state : s.state.asU8 ≤ s'.state.asU8
  completion : ∀ result, s.completion = some result → s'.completion = some result
  forceCancel : s.forceCancel = true → s'.forceCancel = true
  transport : s.transport = false → s'.transport = false
  gate : GateShut s.admission → GateShut s'.admission
  subscriptions : ∀ m, s.subscriptions = some m → m.closed = true →
    ∃ m', s'.subscriptions = some m' ∧ m.Moves m'

theorem Advances.refl (s : ClientRuntime κ) : Advances s s :=
  ⟨Nat.le_refl _, fun _ h => h, fun h => h, fun h => h, fun h => h,
    fun m hm hclosed => ⟨m, hm, .refl hclosed⟩⟩

theorem Advances.trans {s'' : ClientRuntime κ} (h : Advances s s') (h' : Advances s' s'') :
    Advances s s'' where
  state := Nat.le_trans h.state h'.state
  completion _ hs := h'.completion _ (h.completion _ hs)
  forceCancel hs := h'.forceCancel (h.forceCancel hs)
  transport hs := h'.transport (h.transport hs)
  gate hs := h'.gate (h.gate hs)
  subscriptions m hm hclosed := by
    obtain ⟨m', hm', hmoves⟩ := h.subscriptions m hm hclosed
    obtain ⟨m'', hm'', hmoves'⟩ := h'.subscriptions m' hm' hmoves.closed
    exact ⟨m'', hm'', hmoves'.closed, hmoves'.keys.trans hmoves.keys,
      fun key result h => hmoves'.outcome key result (hmoves.outcome key result h)⟩

theorem state_le_of_step (hstep : Step setup s s') (h : Stands s) :
    s.state.asU8 ≤ s'.state.asU8 := by
  unfold Stands at h
  cases hstep with
  | stores hc =>
    rw [hc] at h
    rw [h.1]
    exact Nat.zero_le _
  | storesClosed hc =>
    rw [hc] at h
    rw [h.1]
    exact Nat.le_succ 1
  | _ => exact Nat.le_refl _

theorem completion_of_step (hstep : Step setup s s') (h : Stands s)
    {result : Except ClientError Unit} (hs : s.completion = some result) :
    s'.completion = some result := by
  unfold Stands at h
  cases hstep with
  | completes hc =>
    rw [hc] at h
    rw [h.2.2.1] at hs
    cases hs
  | _ => exact hs

theorem not_transport_of_step (hstep : Step setup s s') (h : s.transport = false) :
    s'.transport = false := by
  cases hstep <;> first | exact h | rfl

theorem advances_of_step (hstep : Step setup s s') (hgate : GateRun setup.maxInFlight s.admission)
    (hstands : Stands s) : Advances s s' where
  state := state_le_of_step hstep hstands
  completion _ := completion_of_step hstep hstands
  forceCancel := forceCancel_of_step hstep
  transport := not_transport_of_step hstep
  gate := hgate.shut (gateMoves_of_step hstep)
  subscriptions _ := subscriptions_of_step hstep

/-! ## What a result means -/

/-- What the shared result of a shutdown says, then and from then on. -/
structure Closed (s : ClientRuntime κ) (result : Except ClientError Unit) : Prop where
  state : s.state = .closed
  pool : s.transport = false
  /-- Nobody is let in any more. -/
  gate : GateShut s.admission
  /-- Invocations are cancelled by force if and only if the shutdown has timed out. -/
  forced : s.forceCancel = true ↔ result = .error deadlineElapsed
  /-- Without that, nobody is at work any more. -/
  drained : result ≠ .error deadlineElapsed →
    ∀ call ∈ s.admission.threads, call.passed = false
  /-- And every subscription has ended; the first to fail by its key is reported. -/
  subscriptions : result ≠ .error deadlineElapsed → subscriptionsResult s.subscriptions = some result

theorem closedResult_ne (outcomes : List (Except RegistryError Unit)) :
    closedResult outcomes ≠ .error deadlineElapsed := by
  unfold closedResult
  split
  · intro h
    cases congrArg ClientError.kind (Except.error.inj h)
  · exact nofun

theorem subscriptionsResult_ne {subscriptions : Option (SubscriptionManager κ)}
    {result : Except ClientError Unit} (h : subscriptionsResult subscriptions = some result) :
    result ≠ .error deadlineElapsed := by
  cases subscriptions with
  | none =>
    cases h
    exact nofun
  | some m =>
    obtain ⟨outcomes, -, rfl⟩ := Option.map_eq_some_iff.mp h
    exact closedResult_ne outcomes

theorem closed_of_completion {result : Except ClientError Unit} (hstands : Stands s)
    (hgated : Gated s.admission s.coordinator) (h : s.completion = some result) :
    Closed s result := by
  unfold Stands at hstands
  cases hc : s.coordinator with
  | finished =>
    rw [hc] at hstands hgated
    obtain ⟨hstate, hpool, -, result', hcompletion, hsettles⟩ := hstands
    obtain rfl : result' = result := Option.some.inj (hcompletion.symm.trans h)
    rcases hsettles with ⟨hforced, hempty, hresult⟩ | ⟨hforced, rfl⟩
    · have hne := subscriptionsResult_ne hresult
      refine ⟨hstate, hpool, hgated, ⟨fun hcancel => ?_, fun heq => absurd heq hne⟩,
        fun _ call hmem => ?_, fun _ => hresult⟩
      · rw [hforced] at hcancel
        cases hcancel
      · obtain ⟨i, hi⟩ := List.mem_iff_getElem?.mp hmem
        exact hempty.unpassed i trivial call hi
    · exact ⟨hstate, hpool, hgated, ⟨fun _ => rfl, fun _ => hforced⟩, (absurd rfl ·),
        (absurd rfl ·)⟩
  | waiting | storing | beginning | closing | subscribing =>
    rw [hc, h] at hstands
    cases hstands.2.2.2
  | joining | working =>
    rw [hc, h] at hstands
    cases hstands.2.2.2.1
  | forcing | dropping | finishing | closingGate | storingClosed | completing =>
    rw [hc, h] at hstands
    cases hstands.2.2.1

end ClientRuntime

section

variable {κ : Type} [LinearOrder κ]

open ClientRuntime

/-- **Admitted work keeps access to the pool until it has drained.**  The pool is there as long
as an invocation is admitted, unless all were cancelled by force. -/
theorem pool_kept (setup : Setup) (es : List (ClientEvent κ)) :
    PoolKept ((client setup).run es) :=
  invariant (I := PoolKept)
    (J := fun s => GateRun setup.maxInFlight s.admission ∧ Gated s.admission s.coordinator ∧ Stands s)
    (fun es => ⟨gateRun_run es, gated_run es, stands_run es⟩)
    { closed := fun hclosed => by cases hclosed
      given := fun _ hmem => by cases hmem }
    (fun _ _ ⟨hgate, hgated, hstands⟩ hstep h => poolKept_of_step hstep hgate hgated hstands h) es

/-- **What a client publishes only advances.** -/
theorem shutdown_advances (setup : Setup) (es later : List (ClientEvent κ)) :
    Advances ((client setup).run es) ((client setup).run (es ++ later)) :=
  stable (J := fun s => GateRun setup.maxInFlight s.admission ∧ Stands s)
    (fun es => ⟨gateRun_run es, stands_run es⟩)
    (fun _ _ ⟨hgate, hstands⟩ hstep h => h.trans (advances_of_step hstep hgate hstands))
    (.refl _) later

/-- **The shared result says what the shutdown has left, for good.** -/
theorem closed_for_good (setup : Setup) (es later : List (ClientEvent κ))
    {result : Except ClientError Unit} (h : ((client setup).run es).completion = some result) :
    Closed ((client setup).run (es ++ later)) result :=
  closed_of_completion (stands_run _) (gated_run _)
    (stable (I := fun s => s.completion = some result) stands_run
      (fun _ _ hstands hstep h => completion_of_step hstep hstands h) h later)

end

/-- A client with discovery and one invocation at a time. -/
def oneInvocation : Setup := ⟨AdmissionGate.onePermit, 4, true⟩

def polls (n : Nat) : List (ClientEvent Nat) := List.replicate n .coordinator

def closeUnavailable : RegistryError :=
  ⟨.closeSubscription, .unavailable, "registry is gone".toList⟩

/-- An invocation is at work when the shutdown begins, and asks for the pool; a subscription
fails to close. -/
def failedClose : List (ClientEvent Nat) :=
  [.acquire 7, .invoke] ++ List.replicate 5 (.call 0 .run) ++ [.shutdown] ++ polls 12 ++
    [.transport 0, .slotState 7 (.failed closeUnavailable), .slotCompleted 7] ++ polls 1 ++
    List.replicate 3 (.call 0 .run) ++ polls 13

theorem closed_for_good_failed :
    ClientRuntime.Closed ((client oneInvocation).run (failedClose ++ [.acquire 7, .invoke]))
      (.error (closeFailed closeUnavailable)) :=
  closed_for_good oneInvocation failedClose [.acquire 7, .invoke] (by decide +kernel)

end Fusen.Client
