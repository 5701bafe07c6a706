import Fusen.Client.ShutdownSafe

/-!
# The shutdown of a client ends

The coordinator of a client waits for the admitted invocations and for the subscriptions, and
for both under the deadline.  So a shutdown ends by its own polls, whoever hangs
(`client_shutdown_ends`): `toEnd` counts them down.

The shutdown timeout is taken to be representable: `Instant::now() + timeout` panics otherwise,
and the coordinator dies.
-/

namespace Fusen.Client

open Lib Register Fusen.Runtime

namespace ClientRuntime

variable {κ : Type} [LinearOrder κ] {setup : Setup} {s s' : ClientRuntime κ}

def closingLeft : Closing κ → Nat
  | .collecting => 2
  | .waiting _ => 1
  | .done _ => 0

/-- How many polls the invocations still take: those of `drained`, and one for the pool. -/
def drainedLeft (p : Pool AdmissionGate AdmissionGate.Call) : Option Nat → Nat
  | some call => AdmissionGate.stepsOf AdmissionGate.Call.drainSteps call p + 1
  | none => 0

/-- How many polls it takes to the end, once the deadline has passed. -/
def toEnd (s : ClientRuntime κ) : Nat :=
  match s.coordinator with
  | .waiting | .finished => 0
  | .storing => 23
  | .beginning => 22
  | .closing call => AdmissionGate.stepsOf AdmissionGate.Call.closeSteps call s.admission + 18
  | .subscribing => 17
  | .joining => 16
  | .working drained closing => closingLeft closing + drainedLeft s.admission drained + 10
  | .forcing => 9
  | .dropping => 8
  | .finishing _ => 7
  | .closingGate call _ => AdmissionGate.stepsOf AdmissionGate.Call.closeSteps call s.admission + 3
  | .storingClosed _ => 2
  | .completing _ => 1

omit [LinearOrder κ] in
theorem toEnd_le (s : ClientRuntime κ) : s.toEnd ≤ 23 := by
  unfold toEnd
  cases hc : s.coordinator with
  | closing call | closingGate call =>
    have := AdmissionGate.closeSteps_le call s.admission
    dsimp only
    omega
  | working drained closing =>
    have hclosing : closingLeft closing ≤ 2 := by
      cases closing with
      | collecting => exact Nat.le_refl 2
      | waiting => exact Nat.le_succ 1
      | done => exact Nat.zero_le 2
    have hdrained : drainedLeft s.admission drained ≤ 5 := by
      cases drained with
      | some call => exact Nat.succ_le_succ (AdmissionGate.drainSteps_le call s.admission)
      | none => exact Nat.zero_le 5
    dsimp only
    omega
  | _ =>
    dsimp only
    omega

omit [LinearOrder κ] in
/-- A call of the coordinator that waits for nobody. -/
theorem closeSteps_poll (setup : Setup) {call : Nat} {kind : AdmissionGate.Call → Bool}
    (hkind : ∀ t, kind t = true → t.closes = true ∨ t.shuts = true)
    (hmakes : AdmissionGate.Makes kind call s.admission) (hreturned : ¬ s.returned call = true) :
    AdmissionGate.stepsOf AdmissionGate.Call.closeSteps call (s.stepGate setup call .run).admission <
      AdmissionGate.stepsOf AdmissionGate.Call.closeSteps call s.admission := by
  obtain ⟨t, ht, hcall⟩ := id hmakes
  have hnext := AdmissionGate.next_of_closes s.admission.shared (hkind t hcall) fun outcome hout => by
    refine hreturned ?_
    unfold returned
    rw [ht, hout]
  exact AdmissionGate.stepsOf_run setup.maxInFlight
    (fun _ _ _ _ h hcall => AdmissionGate.closeSteps_of_next h (hkind _ hcall)) hmakes ht hnext

theorem closingLeft_of_pollClosing {closing closing' : Closing κ}
    (h : s.pollClosing closing = some closing') : closingLeft closing' < closingLeft closing := by
  unfold pollClosing at h
  cases closing with
  | done result => cases h
  | collecting =>
    dsimp only at h
    split at h
    · cases h
      exact Nat.lt_succ_self 1
    · cases h
      exact Nat.succ_pos 1
  | waiting keys =>
    dsimp only at h
    split at h
    · obtain ⟨outcomes, -, rfl⟩ := Option.map_eq_some_iff.mp h
      exact Nat.one_pos
    · cases h

theorem toEnd_work {drained : Option Nat} {closing : Closing κ} (helapsed : s.elapsed = true)
    (hc : s.coordinator = .working drained closing) (hgated : Gated s.admission s.coordinator) :
    (s.work setup drained closing).toEnd <
      closingLeft closing + drainedLeft s.admission drained + 10 := by
  rw [hc] at hgated
  have hmove : ∀ {closing' : Closing κ}, s.pollClosing closing = some closing' →
      toEnd { s with coordinator := .working drained closing' } <
        closingLeft closing + drainedLeft s.admission drained + 10 := by
    intro closing' hclosing
    have := closingLeft_of_pollClosing hclosing
    dsimp only [toEnd]
    omega
  unfold work
  cases drained with
  | some call =>
    dsimp only
    split
    · rename_i hcan
      unfold canStep at hcan
      split at hcan
      · rename_i t ht
        have hless := AdmissionGate.stepsOf_run setup.maxInFlight
          (fun _ _ _ _ => AdmissionGate.drainSteps_of_next) hgated.2.makes ht hcan
        unfold toEnd stepGate
        dsimp only
        rw [hc]
        dsimp only [drainedLeft]
        omega
      · cases hcan
    · split
      · dsimp only [toEnd, drainedLeft]
        omega
      · cases hclosing : s.pollClosing closing with
        | some closing' => exact hmove hclosing
        | none =>
          dsimp only [toEnd]
          omega
  | none =>
    dsimp only
    cases hclosing : s.pollClosing closing with
    | some closing' => exact hmove hclosing
    | none =>
      cases closing with
      | done result =>
        dsimp only [toEnd]
        omega
      | collecting | waiting =>
        dsimp only
        rw [if_pos helapsed]
        dsimp only [toEnd]
        omega

/-- The shutdown has begun, and its deadline has passed. -/
structure Late (s : ClientRuntime κ) : Prop where
  begun : s.hasDeadline = true
  elapsed : s.elapsed = true

theorem hasDeadline_of_step (hstep : Step setup s s') (h : s.hasDeadline = true) :
    s'.hasDeadline = true := by
  unfold hasDeadline at h ⊢
  cases hstep <;> first | exact h | rfl

theorem elapsed_of_step (hstep : Step setup s s') (h : s.elapsed = true) : s'.elapsed = true := by
  cases hstep <;> first | exact h | rfl

theorem Late.step (h : Late s) (hstep : Step setup s s') : Late s' :=
  ⟨hasDeadline_of_step hstep h.begun, elapsed_of_step hstep h.elapsed⟩

omit [LinearOrder κ] in
theorem toEnd_closing {call : Nat} (hc : s.coordinator = .closing call)
    (hgated : Gated s.admission s.coordinator) :
    toEnd (if s.returned call then { s with coordinator := .subscribing }
      else s.stepGate setup call .run) ≤
      AdmissionGate.stepsOf AdmissionGate.Call.closeSteps call s.admission + 17 := by
  rw [hc] at hgated
  split
  · exact Nat.le_add_left 17 _
  · rename_i hreturned
    have := closeSteps_poll setup (fun _ => Or.inl) hgated hreturned
    have hsteps : toEnd (s.stepGate setup call .run) = AdmissionGate.stepsOf
        AdmissionGate.Call.closeSteps call (s.stepGate setup call .run).admission + 18 := by
      unfold toEnd stepGate
      dsimp only
      rw [hc]
    omega

omit [LinearOrder κ] in
theorem toEnd_closingGate {call : Nat} {result : Except ClientError Unit}
    (hc : s.coordinator = .closingGate call result) (hgated : Gated s.admission s.coordinator) :
    toEnd (if s.returned call then { s with coordinator := .storingClosed result }
      else s.stepGate setup call .run) ≤
      AdmissionGate.stepsOf AdmissionGate.Call.closeSteps call s.admission + 2 := by
  rw [hc] at hgated
  split
  · exact Nat.le_add_left 2 _
  · rename_i hreturned
    have := closeSteps_poll setup (fun _ => Or.inr) hgated.2 hreturned
    have hsteps : toEnd (s.stepGate setup call .run) = AdmissionGate.stepsOf
        AdmissionGate.Call.closeSteps call (s.stepGate setup call .run).admission + 3 := by
      unfold toEnd stepGate
      dsimp only
      rw [hc]
    omega

theorem toEnd_poll (h : Late s) (hgated : Gated s.admission s.coordinator) :
    (s.poll setup).toEnd ≤ s.toEnd - 1 := by
  obtain ⟨hbegun, helapsed⟩ := h
  unfold hasDeadline at hbegun
  unfold toEnd poll
  cases hc : s.coordinator with
  | waiting =>
    rw [hc] at hbegun
    cases hbegun
  | storing | subscribing | forcing | dropping | storingClosed | completing => exact Nat.le_refl _
  | beginning =>
    exact Nat.add_le_add_right (Nat.le_of_eq (AdmissionGate.stepsOf_new _ _ _ s.admission)) 18
  | closing call => exact toEnd_closing hc hgated
  | joining =>
    have hnew := AdmissionGate.stepsOf_new setup.maxInFlight AdmissionGate.Call.drainSteps .drained
      s.admission
    show 2 + (AdmissionGate.stepsOf AdmissionGate.Call.drainSteps s.admission.threads.length
      ((gate setup.maxInFlight).step s.admission (.spawn .drained)) + 1) + 10 ≤ 15
    rw [hnew]
    exact Nat.le_refl _
  | working drained closing =>
    exact Nat.le_sub_one_of_lt (toEnd_work helapsed hc hgated)
  | finishing result =>
    exact Nat.add_le_add_right (Nat.le_of_eq (AdmissionGate.stepsOf_new _ _ _ s.admission)) 3
  | closingGate call result => exact toEnd_closingGate hc hgated
  | finished =>
    dsimp only
    rw [hc]

omit [LinearOrder κ] in
theorem finished_of_toEnd (hbegun : s.hasDeadline = true) (h : s.toEnd = 0) :
    s.coordinator = .finished := by
  unfold hasDeadline at hbegun
  unfold toEnd at h
  cases hc : s.coordinator with
  | finished => rfl
  | waiting =>
    rw [hc] at hbegun
    cases hbegun
  | closing | working | closingGate =>
    rw [hc] at h
    dsimp only at h
    omega
  | _ =>
    rw [hc] at h
    cases h

/-- A shutdown that was asked for begins with the next poll. -/
theorem late_of_shutdown (hshutdown : s.shutdown = true) :
    Late ((s.poll setup).step setup .deadlineElapses) := by
  have hbegun : (s.poll setup).hasDeadline = true := by
    by_cases hbegun : s.hasDeadline = true
    · exact hasDeadline_of_step step_poll hbegun
    · have hc : s.coordinator = .waiting := by
        unfold hasDeadline at hbegun
        split at hbegun
        · assumption
        · exact absurd rfl hbegun
      unfold poll hasDeadline
      rw [hc]
      dsimp only
      rw [if_pos hshutdown]
  unfold step
  dsimp only
  rw [if_pos hbegun]
  exact ⟨hbegun, rfl⟩

end ClientRuntime

open ClientRuntime in
/-- **A shutdown of a client ends, whoever hangs.**  Once it is asked for, in whatever state, it
takes the coordinator its own polls and the deadline. -/
theorem client_shutdown_ends {κ : Type} [LinearOrder κ] (setup : Setup)
    (es : List (ClientEvent κ)) :
    let s := (client setup).run (es ++ [.shutdown] ++ [.coordinator] ++ [.deadlineElapses] ++
      List.replicate 23 .coordinator)
    s.state = .closed ∧ ∃ result, s.completion = some result := by
  have hlate : Late ((client setup).run
      (es ++ [.shutdown] ++ [.coordinator] ++ [.deadlineElapses])) := by
    rw [Machine.run_concat, Machine.run_concat, Machine.run_concat]
    exact late_of_shutdown rfl
  obtain ⟨hlate', hend⟩ := (client setup).countdown Late toEnd .coordinator hlate
    (fun es h => ⟨h.step step_poll, toEnd_poll h (gated_run es)⟩) 23
  have hzero := Nat.le_zero.mp (Nat.le_trans hend
    (Nat.le_of_eq (Nat.sub_eq_zero_of_le (toEnd_le _))))
  have hstands := @stands_run κ _ setup
    (es ++ [.shutdown] ++ [.coordinator] ++ [.deadlineElapses] ++ List.replicate 23 .coordinator)
  unfold Stands at hstands
  rw [finished_of_toEnd hlate'.begun hzero] at hstands
  obtain ⟨hstate, -, -, result, hcompletion, -⟩ := hstands
  exact ⟨hstate, result, hcompletion⟩

end Fusen.Client
