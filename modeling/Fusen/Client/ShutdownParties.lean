import Fusen.Client.ShutdownSteps

/-!
# What the parties of a client keep

The gate, the subscriptions and the cells that others read, each by what a step can do to it.
-/

namespace Fusen.Client

open Lib Register Fusen.Runtime

/-! ## The subscriptions -/

namespace SubscriptionManager

variable {κ : Type} [LinearOrder κ]

/-- What can become of a manager that is closed: its slots stay, and so do their outcomes. -/
structure Moves (m m' : SubscriptionManager κ) : Prop where
  closed : m'.closed = true
  keys : m'.slots.map Slot.key = m.slots.map Slot.key
  outcome : ∀ key result, m.outcome key = some result → m'.outcome key = some result

variable {m m' : SubscriptionManager κ}

theorem Moves.refl (h : m.closed = true) : Moves m m := ⟨h, rfl, fun _ _ h => h⟩

theorem moves_acquire (h : m.closed = true) (maxSubscriptions : Nat) (key : κ) :
    Moves m (m.acquire maxSubscriptions key) := by
  unfold acquire
  rw [if_pos h]
  exact .refl h

theorem moves_supervise (h : m.closed = true) (key : κ) {f : Slot κ → Slot κ}
    (hkey : ∀ slot, (f slot).key = slot.key) : Moves m (m.supervise key f) := by
  have hslot : ∀ slot : Slot κ,
      (if slot.key = key ∧ slot.completion = .pending then f slot else slot).key = slot.key := by
    intro slot
    split
    · exact hkey slot
    · rfl
  refine ⟨h, ?_, fun key' result houtcome => ?_⟩
  · show (m.slots.map _).map Slot.key = _
    rw [List.map_map]
    exact List.map_congr_left fun slot _ => hslot slot
  · unfold outcome at houtcome ⊢
    obtain ⟨slot, hfind, hresult⟩ := Option.bind_eq_some_iff.mp houtcome
    have hpending : slot.completion ≠ .pending := by
      intro hpending
      unfold Slot.outcome at hresult
      rw [hpending] at hresult
      cases hresult
    have hfind' : (m.supervise key f).slots.find? (fun slot => slot.key = key') = some slot := by
      show (m.slots.map _).find? _ = some slot
      rw [List.find?_map, show ((fun slot : Slot κ => decide (slot.key = key')) ∘ fun slot =>
        if slot.key = key ∧ slot.completion = .pending then f slot else slot) =
          fun slot => decide (slot.key = key') from funext fun slot => by
            rw [Function.comp_apply, hslot]]
      rw [hfind, Option.map_some, if_neg fun hmatch => hpending hmatch.2]
    rw [hfind']
    exact hresult

theorem Moves.collect (h : Moves m m') : m'.collect = m.collect := by
  unfold SubscriptionManager.collect
  rw [h.keys]

theorem Moves.joinAll (h : Moves m m') {keys : List κ} {outcomes : List (Except RegistryError Unit)}
    (hall : m.joinAll keys = some outcomes) : m'.joinAll keys = some outcomes := by
  unfold SubscriptionManager.joinAll at hall ⊢
  induction keys generalizing outcomes with
  | nil => exact hall
  | cons key keys ih =>
    simp only [List.mapM_cons, Option.pure_def, Option.bind_eq_bind, Option.bind_eq_some_iff] at hall ⊢
    obtain ⟨outcome, houtcome, rest, hrest, hall⟩ := hall
    exact ⟨outcome, h.outcome key outcome houtcome, rest, ih hrest, hall⟩

end SubscriptionManager

/-- What the subscriptions come to, once all of them have ended. -/
def subscriptionsResult {κ : Type} [LinearOrder κ] :
    Option (SubscriptionManager κ) → Option (Except ClientError Unit)
  | none => some (.ok ())
  | some manager => (manager.joinAll manager.collect).map closedResult

/-- There is no open manager. -/
def Unsubscribed {κ : Type} (subscriptions : Option (SubscriptionManager κ)) : Prop :=
  ∀ manager, subscriptions = some manager → manager.closed = true

namespace ClientRuntime

variable {κ : Type} [LinearOrder κ] {setup : Setup} {s s' : ClientRuntime κ}

/-- The rule for invariants, by what a step can do. -/
theorem invariant {J I : ClientRuntime κ → Prop} (hJ : ∀ es, J ((client setup).run es))
    (hinit : I (.new setup)) (hstep : ∀ s s', J s → Step setup s s' → I s → I s')
    (es : List (ClientEvent κ)) : I ((client setup).run es) :=
  (client setup).invariant_next_to hJ hinit
    (fun s e hj hi => hstep s _ hj (step_cases setup s e) hi) es

/-- The same for what stays once it holds. -/
theorem stable {J I : ClientRuntime κ → Prop} (hJ : ∀ es, J ((client setup).run es))
    (hstep : ∀ s s', J s → Step setup s s' → I s → I s') {es : List (ClientEvent κ)}
    (h : I ((client setup).run es)) (later : List (ClientEvent κ)) :
    I ((client setup).run (es ++ later)) :=
  (client setup).stable hJ (fun s e hj hi => hstep s _ hj (step_cases setup s e) hi) h later

/-- What a step does to a manager that is closed. -/
theorem subscriptions_of_step (hstep : Step setup s s') {m : SubscriptionManager κ}
    (hm : s.subscriptions = some m) (hclosed : m.closed = true) :
    ∃ m', s'.subscriptions = some m' ∧ m.Moves m' := by
  have hmap : ∀ f : SubscriptionManager κ → SubscriptionManager κ, m.Moves (f m) →
      ∃ m', s.subscriptions.map f = some m' ∧ m.Moves m' := by
    intro f hf
    rw [hm]
    exact ⟨f m, rfl, hf⟩
  cases hstep with
  | acquire key => exact hmap _ (SubscriptionManager.moves_acquire hclosed _ key)
  | supervised key hkey => exact hmap _ (SubscriptionManager.moves_supervise hclosed key hkey)
  | subscriptionsClose => exact hmap _ ⟨rfl, rfl, fun _ _ h => h⟩
  | _ => exact ⟨m, hm, .refl hclosed⟩

theorem subscriptions_none (hstep : Step setup s s') (hm : s.subscriptions = none) :
    s'.subscriptions = none := by
  cases hstep with
  | acquire | supervised | subscriptionsClose =>
    show s.subscriptions.map _ = none
    rw [hm]
    rfl
  | _ => exact hm

theorem unsubscribed_of_step (hstep : Step setup s s') (h : Unsubscribed s.subscriptions) :
    Unsubscribed s'.subscriptions := by
  intro m' hm'
  cases hm : s.subscriptions with
  | none =>
    rw [subscriptions_none hstep hm] at hm'
    cases hm'
  | some m =>
    obtain ⟨m'', hm'', hmoves⟩ := subscriptions_of_step hstep hm (h m hm)
    obtain rfl : m'' = m' := Option.some.inj (hm''.symm.trans hm')
    exact hmoves.closed

/-- What closed subscriptions have come to stays. -/
theorem subscriptionsResult_of_step (hstep : Step setup s s') (h : Unsubscribed s.subscriptions)
    {result : Except ClientError Unit} (hresult : subscriptionsResult s.subscriptions = some result) :
    subscriptionsResult s'.subscriptions = some result := by
  cases hm : s.subscriptions with
  | none =>
    rw [hm] at hresult
    rwa [subscriptions_none hstep hm]
  | some m =>
    rw [hm] at hresult
    obtain ⟨m', hm', hmoves⟩ := subscriptions_of_step hstep hm (h m hm)
    obtain ⟨outcomes, houtcomes, hclosed⟩ := Option.map_eq_some_iff.mp hresult
    rw [hm']
    unfold subscriptionsResult
    dsimp only
    rw [hmoves.collect, hmoves.joinAll houtcomes, ← hclosed]
    rfl

/-! ## The gate -/

theorem gateMoves_of_step (hstep : Step setup s s') :
    GateMoves setup.maxInFlight s.admission s'.admission := by
  cases hstep with
  | invoke => exact .inr ⟨.spawn .tryEnter, rfl⟩
  | queued => exact .inr ⟨.spawn .enter, rfl⟩
  | call i e => exact .inr ⟨.act i e, rfl⟩
  | begins => exact .inr ⟨.spawn .beginDraining, rfl⟩
  | @gateCloses call | @drainedMoves call | @gateEnds call => exact .inr ⟨.act call .run, rfl⟩
  | joins => exact .inr ⟨.spawn .drained, rfl⟩
  | @late call => exact .inr ⟨.act call .cancel, rfl⟩
  | finishes => exact .inr ⟨.spawn .close, rfl⟩
  | _ => exact .inl rfl

theorem gateRun_run (es : List (ClientEvent κ)) :
    GateRun setup.maxInFlight ((client setup).run es).admission :=
  invariant (J := fun _ => True) (I := fun s => GateRun setup.maxInFlight s.admission)
    (fun _ => trivial) ⟨[], rfl⟩ (fun _ _ _ hstep h => h.moves (gateMoves_of_step hstep)) es

/-- What the coordinator knows of the gate where it stands. -/
def Gated (p : Pool AdmissionGate AdmissionGate.Call) : Coordinator κ → Prop
  | .waiting | .storing | .beginning => True
  | .closing call => AdmissionGate.Makes AdmissionGate.Call.closes call p
  | .working (some call) _ => GateShut p ∧ Draining call p
  | .working none _ => GateShut p ∧ GateEmpty p
  | .closingGate call _ => GateShut p ∧ AdmissionGate.Makes AdmissionGate.Call.shuts call p
  | _ => GateShut p

omit [LinearOrder κ] in
theorem returned_of {call : Nat} (h : s.returned call = true) : Returned call s.admission := by
  unfold returned at h
  split at h
  · rename_i outcome hcall
    exact ⟨outcome, hcall⟩
  · cases h

omit [LinearOrder κ] in
/-- A step at the gate that is not the coordinator's own. -/
theorem gated_of_other {ev : Event AdmissionGate.Kind AdmissionGate.Action}
    (hgate : GateRun setup.maxInFlight s.admission)
    (hown : ∀ i e, ev = .act i e → s.ownCall ≠ some i ∨ e = .run)
    (h : Gated s.admission s.coordinator) :
    Gated ((gate setup.maxInFlight).step s.admission ev) s.coordinator := by
  have hshut : GateShut s.admission → GateShut ((gate setup.maxInFlight).step s.admission ev) :=
    hgate.shut (.inr ⟨ev, rfl⟩)
  have hown' : ∀ k, s.ownCall = some k → ∀ e, ev = .act k e → e = .run := by
    intro k hk e hev
    exact (hown k e hev).resolve_left fun hne => hne hk
  unfold ownCall at hown'
  cases hc : s.coordinator with
  | waiting | storing | beginning => trivial
  | closing call =>
    rw [hc] at h hown'
    exact AdmissionGate.makes_step (fun _ _ _ _ => AdmissionGate.closes_of_next) h (hown' call rfl)
  | working drained closing =>
    rw [hc] at h hown'
    cases drained with
    | some call => exact ⟨hshut h.1, hgate.draining_step h.2 (hown' call rfl)⟩
    | none => exact ⟨hshut h.1, hgate.empty (.inr ⟨ev, rfl⟩) h.2⟩
  | closingGate call result =>
    rw [hc] at h hown'
    exact ⟨hshut h.1,
      AdmissionGate.makes_step (fun _ _ _ _ => AdmissionGate.shuts_of_next) h.2 (hown' call rfl)⟩
  | _ =>
    rw [hc] at h
    exact hshut h

theorem gated_of_step (hstep : Step setup s s') (hgate : GateRun setup.maxInFlight s.admission)
    (h : Gated s.admission s.coordinator) : Gated s'.admission s'.coordinator := by
  have hspawn : ∀ kind, GateShut s.admission →
      GateShut ((gate setup.maxInFlight).step s.admission (.spawn kind)) :=
    fun kind => hgate.shut (.inr ⟨.spawn kind, rfl⟩)
  cases hstep with
  | invoke => exact gated_of_other hgate (fun _ _ hev => by cases hev) h
  | queued => exact gated_of_other hgate (fun _ _ hev => by cases hev) h
  | call i e hown =>
    refine gated_of_other hgate (fun j e' hev => ?_) h
    cases hev
    exact .inl hown
  | gateCloses | drainedMoves | gateEnds =>
    refine gated_of_other hgate (fun j e' hev => ?_) h
    cases hev
    exact .inr rfl
  | starts => trivial
  | stores => trivial
  | begins => exact AdmissionGate.makes_new _ rfl
  | gateClosed hc hreturned =>
    rw [hc] at h
    exact hgate.shut_of_returned h (returned_of hreturned)
  | subscriptionsClose hc =>
    rw [hc] at h
    exact h
  | joins hc =>
    rw [hc] at h
    exact ⟨hspawn .drained h, hgate.draining_new h⟩
  | poolCloses hc hreturned =>
    rw [hc] at h
    exact ⟨h.1, h.2.gateEmpty (returned_of hreturned)⟩
  | @closingMoves drained _ _ hc =>
    rw [hc] at h
    cases drained <;> exact h
  | worked hc | lateClosing hc | gateEnded hc =>
    rw [hc] at h
    exact h.1
  | @late call _ hc =>
    rw [hc] at h
    exact hgate.shut (.inr ⟨.act call .cancel, rfl⟩) h.1
  | forces hc | drops hc | storesClosed hc | completes hc =>
    rw [hc] at h
    exact h
  | finishes hc =>
    rw [hc] at h
    exact ⟨hspawn .close h, AdmissionGate.makes_new _ rfl⟩
  | _ => exact h

theorem gated_run (es : List (ClientEvent κ)) :
    Gated ((client setup).run es).admission ((client setup).run es).coordinator :=
  invariant (I := fun s => Gated s.admission s.coordinator) gateRun_run trivial
    (fun _ _ hgate hstep h => gated_of_step hstep hgate h) es

end ClientRuntime

end Fusen.Client
