import Fusen.Client.Shutdown

/-!
# What a step of a client does

`ClientRuntime.Step` lists what can happen, by who does it, and `ClientRuntime.step_cases` is the
spec lemma of the machine.
-/

namespace Fusen.Client

open Lib Register Fusen.Runtime

namespace ClientRuntime

variable {κ : Type} [LinearOrder κ]

/-- What can happen to a client. -/
inductive Step (setup : Setup) (s : ClientRuntime κ) : ClientRuntime κ → Prop
  | idle : Step setup s s
  -- the invocations
  | invoke (hstate : s.state = .running) : Step setup s (s.spawnGate setup .tryEnter)
  | queued {i : Nat} (hcall : s.admission.threads[i]? = some (.finished (.error .overloaded))) :
    Step setup s (s.spawnGate setup .enter)
  | call (i : Nat) (e : AdmissionGate.Action) (hown : s.ownCall ≠ some i) :
    Step setup s (s.stepGate setup i e)
  | accessed {i : Nat} (hcall : s.admission.threads[i]? = some .guard) :
    Step setup s { s with accesses := s.accesses ++ [⟨s.forceCancel, s.transport⟩] }
  -- the subscriptions
  | acquire (key : κ) :
    Step setup s { s with
      subscriptions := s.subscriptions.map (·.acquire setup.maxSubscriptions key) }
  | supervised (key : κ) {f : Slot κ → Slot κ} (hkey : ∀ slot, (f slot).key = slot.key) :
    Step setup s (s.supervise key f)
  -- the users and the clock
  | shutdown : Step setup s { s with shutdown := true }
  | elapses (hdeadline : s.hasDeadline = true) : Step setup s { s with elapsed := true }
  -- the coordinator
  | starts (hc : s.coordinator = .waiting) (hshutdown : s.shutdown = true) :
    Step setup s { s with coordinator := .storing }
  | stores (hc : s.coordinator = .storing) :
    Step setup s { s with state := .draining, coordinator := .beginning }
  | begins (hc : s.coordinator = .beginning) :
    Step setup s
      { s.spawnGate setup .beginDraining with coordinator := .closing s.admission.threads.length }
  | gateCloses {call : Nat} (hc : s.coordinator = .closing call) :
    Step setup s (s.stepGate setup call .run)
  | gateClosed {call : Nat} (hc : s.coordinator = .closing call)
      (hreturned : s.returned call = true) : Step setup s { s with coordinator := .subscribing }
  | subscriptionsClose (hc : s.coordinator = .subscribing) :
    Step setup s { s with
      subscriptions := s.subscriptions.map SubscriptionManager.beginShutdown
      coordinator := .joining }
  | joins (hc : s.coordinator = .joining) :
    Step setup s { s.spawnGate setup .drained with
      coordinator := .working (some s.admission.threads.length) .collecting }
  | drainedMoves {call : Nat} {closing : Closing κ}
      (hc : s.coordinator = .working (some call) closing) :
    Step setup s (s.stepGate setup call .run)
  | poolCloses {call : Nat} {closing : Closing κ}
      (hc : s.coordinator = .working (some call) closing) (hreturned : s.returned call = true) :
    Step setup s { s with transport := false, coordinator := .working none closing }
  | closingMoves {drained : Option Nat} {closing closing' : Closing κ}
      (hc : s.coordinator = .working drained closing)
      (hclosing : s.pollClosing closing = some closing') :
    Step setup s { s with coordinator := .working drained closing' }
  | worked {result : Except ClientError Unit}
      (hc : s.coordinator = .working none (.done result)) :
    Step setup s { s with coordinator := .finishing result }
  | late {call : Nat} {closing : Closing κ} (hc : s.coordinator = .working (some call) closing) :
    Step setup s { s.stepGate setup call .cancel with coordinator := .forcing }
  | lateClosing {closing : Closing κ} (hc : s.coordinator = .working none closing) :
    Step setup s { s with coordinator := .forcing }
  | forces (hc : s.coordinator = .forcing) :
    Step setup s { s with forceCancel := true, coordinator := .dropping }
  | drops (hc : s.coordinator = .dropping) :
    Step setup s { s with transport := false, coordinator := .finishing (.error deadlineElapsed) }
  | finishes {result : Except ClientError Unit} (hc : s.coordinator = .finishing result) :
    Step setup s { s.spawnGate setup .close with
      coordinator := .closingGate s.admission.threads.length result }
  | gateEnds {call : Nat} {result : Except ClientError Unit}
      (hc : s.coordinator = .closingGate call result) : Step setup s (s.stepGate setup call .run)
  | gateEnded {call : Nat} {result : Except ClientError Unit}
      (hc : s.coordinator = .closingGate call result) (hreturned : s.returned call = true) :
    Step setup s { s with coordinator := .storingClosed result }
  | storesClosed {result : Except ClientError Unit} (hc : s.coordinator = .storingClosed result) :
    Step setup s { s with state := .closed, coordinator := .completing result }
  | completes {result : Except ClientError Unit} (hc : s.coordinator = .completing result) :
    Step setup s { s with completion := some result, coordinator := .finished }

section

variable {setup : Setup} {s : ClientRuntime κ}

theorem step_work {drained : Option Nat} {closing : Closing κ}
    (hc : s.coordinator = .working drained closing) : Step setup s (s.work setup drained closing) := by
  unfold work
  cases drained with
  | some call =>
    dsimp only
    split
    · exact .drainedMoves hc
    · split
      · rename_i hreturned
        exact .poolCloses hc hreturned
      · cases hclosing : s.pollClosing closing with
        | some closing' => exact .closingMoves hc hclosing
        | none =>
          dsimp only
          split
          · exact .late hc
          · exact .idle
  | none =>
    dsimp only
    cases hclosing : s.pollClosing closing with
    | some closing' => exact .closingMoves hc hclosing
    | none =>
      cases closing with
      | done result => exact .worked hc
      | collecting | waiting =>
        dsimp only
        split
        · exact .lateClosing hc
        · exact .idle

theorem step_poll : Step setup s (s.poll setup) := by
  unfold poll
  cases hc : s.coordinator with
  | waiting =>
    dsimp only
    split
    · rename_i hshutdown
      exact .starts hc hshutdown
    · exact .idle
  | storing => exact .stores hc
  | beginning => exact .begins hc
  | closing call =>
    dsimp only
    split
    · rename_i hreturned
      exact .gateClosed hc hreturned
    · exact .gateCloses hc
  | subscribing => exact .subscriptionsClose hc
  | joining => exact .joins hc
  | working drained closing => exact step_work hc
  | forcing => exact .forces hc
  | dropping => exact .drops hc
  | finishing result => exact .finishes hc
  | closingGate call result =>
    dsimp only
    split
    · rename_i hreturned
      exact .gateEnded hc hreturned
    · exact .gateEnds hc
  | storingClosed result => exact .storesClosed hc
  | completing result => exact .completes hc
  | finished => exact .idle

end

/-- **Every event does one of these.** -/
theorem step_cases (setup : Setup) (s : ClientRuntime κ) (e : ClientEvent κ) :
    Step setup s (s.step setup e) := by
  cases e with
  | coordinator => exact step_poll
  | invoke =>
    unfold step
    dsimp only
    split
    · rename_i hstate
      exact .invoke hstate
    · exact .idle
  | queued i =>
    unfold step
    dsimp only
    split
    · rename_i hcall
      exact .queued hcall
    · exact .idle
  | call i e =>
    unfold step
    dsimp only
    split
    · exact .idle
    · rename_i hown
      exact .call i e hown
  | transport i =>
    unfold step
    dsimp only
    split
    · rename_i hcall
      exact .accessed hcall
    · exact .idle
  | acquire key => exact .acquire key
  | slotState key state => exact .supervised key fun _ => rfl
  | slotCompleted key => exact .supervised key fun _ => rfl
  | slotDropped key => exact .supervised key fun _ => rfl
  | shutdown => exact .shutdown
  | deadlineElapses =>
    unfold step
    dsimp only
    split
    · rename_i hdeadline
      exact .elapses hdeadline
    · exact .idle

end ClientRuntime

end Fusen.Client
