import Fusen.Server.LifecycleSafe

/-!
# A shutdown ends

The coordinator waits for others in three places, and each of them has a deadline or ends with
the shutdown.  So a shutdown comes to its end by the coordinator's own polls, whoever hangs
(`shutdown_ends`): `toDeadline` counts down to the point where the deadline of the drain is
set, and `toEnd`, once that has passed, to the end.

The startup timeout, the shutdown timeout and the timeout of an operation are taken to be
representable: `Instant::now() + timeout` panics otherwise, and the coordinator dies.
-/

namespace Fusen.Server

open Lib Contract Register Fusen.Runtime

namespace Running

variable {setup : Setup} {s : Running}

/-! ## Up to the deadline -/

/-- How many polls it takes to set the deadline of the drain, once a shutdown was asked for. -/
def toDeadline (setup : Setup) (s : Running) : Nat :=
  match s.coordinator with
  | .accepting => setup.registrations.length + 10
  | .registering => setup.registrations.length + 9
  | .preparing n => setup.registrations.length - n + 8
  | .storingReady => 10
  | .settingReady => 9
  | .announcing => 8
  | .serving | .activating .. => 7
  | .draining _ _ .storing => 6
  | .draining _ _ .beginning => 5
  | .draining _ _ (.closing call) =>
    AdmissionGate.stepsOf AdmissionGate.Call.closeSteps call s.admission + 1
  | _ => 0

theorem toDeadline_le (setup : Setup) (s : Running) :
    s.toDeadline setup ≤ setup.registrations.length + 10 := by
  unfold toDeadline
  split
  all_goals first
    | omega
    | rename_i call _
      have := AdmissionGate.closeSteps_le call s.admission
      omega

/-- The deadline of the drain is set, or the drain is over. -/
def isDue : Coordinator → Bool
  | .draining _ _ .sending | .draining _ _ .listener | .draining _ _ .publishing
  | .draining _ _ (.working ..) | .failing _ | .storingStopped _ | .settingStopped _
  | .completing _ | .finished => true
  | _ => false

theorem isDue_endOfDrain (startupError : Option ServerError) (result : Except ServerError Unit) :
    isDue (endOfDrain startupError result) = true := by
  rcases endOfDrain_cases startupError result with ⟨-, heq⟩ | ⟨_, e, -, heq, -⟩ <;> rw [heq] <;> rfl

theorem isDue_of_step {s' : Running} (hstep : Step setup s s') (h : isDue s.coordinator = true) :
    isDue s'.coordinator = true := by
  cases hstep with
  | accepting hc | registering hc | prepared hc | preparationFailed hc | preparedAll hc
  | startupFailed hc | activationTaken hc | activationPending hc | activatedAll hc
  | storingReady hc | settingReady hc | announcing hc | servingEnds hc | drainStores hc
  | drainBegins hc =>
    rw [hc] at h
    cases h
  | gateClosed | commandSent | listenerClosed | listenerLost | published | closesMove
  | outcomeReceived | failing | storingStopped | settingStopped | completing => rfl
  | listenerLate | workDone | workLate => exact isDue_endOfDrain _ _
  | _ => exact h

theorem isDue_of_toDeadline (h : s.toDeadline setup = 0) : isDue s.coordinator = true := by
  unfold toDeadline at h
  cases hc : s.coordinator with
  | draining startupError fatal stage =>
    rw [hc] at h
    cases stage <;> first | rfl | cases h
  | failing | storingStopped | settingStopped | completing | finished => rfl
  | _ =>
    rw [hc] at h
    cases h

theorem toDeadline_of_isDue (h : isDue s.coordinator = true) : s.toDeadline setup = 0 := by
  unfold toDeadline
  cases hc : s.coordinator with
  | draining startupError fatal stage =>
    rw [hc] at h
    cases stage <;> first | rfl | cases h
  | failing | storingStopped | settingStopped | completing | finished => rfl
  | _ =>
    rw [hc] at h
    cases h

theorem shutdown_of_step {s' : Running} (hstep : Step setup s s') (h : s.shutdown = true) :
    s'.shutdown = true := by
  cases hstep <;> first | exact h | rfl

theorem toDeadline_prepare (n : Nat) :
    (s.prepare setup n).toDeadline setup ≤ setup.registrations.length - n + 7 := by
  unfold prepare
  split
  · exact Nat.le_add_left 7 _
  · rename_i planned hn
    have hlt : n < setup.registrations.length := (List.getElem?_eq_some_iff.mp hn).1
    split
    · show setup.registrations.length - (n + 1) + 8 ≤ _
      omega
    · exact Nat.le_add_left 7 _
    · exact Nat.le_add_left 7 _

/-- `begin_draining` waits for nobody. -/
theorem toDeadline_closing {startupError : Option ServerError} {fatal : Option Text} {call : Nat}
    (hc : s.coordinator = .draining startupError fatal (.closing call))
    (hgated : Gated s.admission s.coordinator) :
    (s.drain setup startupError fatal .poll (.closing call)).toDeadline setup ≤
      AdmissionGate.stepsOf AdmissionGate.Call.closeSteps call s.admission := by
  rw [hc] at hgated
  unfold drain
  dsimp only
  split
  · exact Nat.zero_le _
  · rename_i hreturned
    obtain ⟨t, ht, hcloses⟩ := id hgated
    have hnext := AdmissionGate.next_of_closes s.admission.shared (.inl hcloses) fun outcome hout => by
      refine hreturned ?_
      unfold returned
      rw [ht, hout]
    have hless := AdmissionGate.stepsOf_run setup.maxConcurrentRequests
      (fun _ _ _ _ h hcall => AdmissionGate.closeSteps_of_next h (.inl hcall)) hgated ht hnext
    show toDeadline setup { s.stepGate setup call .run with } ≤ _
    unfold toDeadline stepGate
    dsimp only
    rw [hc]
    exact hless

theorem toDeadline_poll (hshutdown : s.shutdown = true)
    (hgated : Gated s.admission s.coordinator) :
    (s.poll setup .poll).toDeadline setup ≤ s.toDeadline setup - 1 := by
  cases hdue : isDue s.coordinator with
  | true =>
    rw [toDeadline_of_isDue (isDue_of_step step_poll hdue)]
    exact Nat.zero_le _
  | false =>
    unfold toDeadline poll
    cases hc : s.coordinator with
    | accepting | registering => exact Nat.le_refl _
    | preparing n => exact toDeadline_prepare n
    | activating prepared waiting running =>
      dsimp only
      unfold startUp
      rw [if_pos hshutdown]
      exact Nat.le_refl _
    | storingReady | settingReady | announcing => exact Nat.le_refl _
    | serving =>
      dsimp only
      rw [if_pos hshutdown]
    | draining startupError fatal stage =>
      cases stage with
      | storing => exact Nat.le_refl _
      | beginning =>
        exact Nat.succ_le_succ (Nat.le_of_eq (AdmissionGate.stepsOf_new _ _ _ s.admission))
      | closing call => exact toDeadline_closing hc hgated
      | _ =>
        rw [hc] at hdue
        cases hdue
    | _ =>
      rw [hc] at hdue
      cases hdue

/-! ## From the deadline on -/

def closesLeft : Closes → Nat
  | .done _ => 0
  | .batches .. => 1
  | .batch .. => 2

def acceptLeft : Option (Option AcceptOutcome) → Nat
  | none => 1
  | some _ => 0

/-- How many polls it takes to the end, once the deadline has passed. -/
def toEnd (s : Running) : Nat :=
  match s.coordinator with
  | .draining _ _ .sending => 12
  | .draining _ _ .listener => 11
  | .draining _ _ .publishing => 10
  | .draining _ _ (.working _ closes call accept) =>
    closesLeft closes + AdmissionGate.stepsOf AdmissionGate.Call.drainSteps call s.admission +
      acceptLeft accept + 5
  | .failing _ => 4
  | .storingStopped _ => 3
  | .settingStopped _ => 2
  | .completing _ => 1
  | _ => 0

theorem toEnd_le (s : Running) : s.toEnd ≤ 12 := by
  unfold toEnd
  split
  all_goals first
    | omega
    | rename_i closes call accept _
      have hsteps := AdmissionGate.drainSteps_le call s.admission
      have hcloses : closesLeft closes ≤ 2 := by
        cases closes with
        | done => exact Nat.zero_le 2
        | batches => exact Nat.le_succ 1
        | batch => exact Nat.le_refl 2
      have haccept : acceptLeft accept ≤ 1 := by
        cases accept with
        | none => exact Nat.le_refl 1
        | some => exact Nat.zero_le 1
      omega

theorem toEnd_endOfDrain (startupError : Option ServerError) (result : Except ServerError Unit) :
    toEnd { s with coordinator := endOfDrain startupError result } ≤ 4 := by
  unfold toEnd
  rcases endOfDrain_cases startupError result with ⟨-, heq⟩ | ⟨_, e, -, heq, -⟩
  · rw [heq]
    exact Nat.le_succ 3
  · rw [heq]

section

variable (helapsed : s.drainElapsed = true)

include helapsed

theorem closeResult_isSome (i : Nat) : (s.closeResult .poll i).isSome = true := by
  unfold closeResult
  split
  · rfl
  · dsimp only
    rw [if_pos helapsed]
    rfl

theorem all_isSome (results : List (Nat × Option (Option RegistryResult))) :
    ((results.map fun x => (x.1, x.2.or (s.closeResult .poll x.1))).all fun x => x.2.isSome) =
      true := by
  rw [List.all_eq_true]
  intro x hx
  obtain ⟨y, -, rfl⟩ := List.mem_map.mp hx
  rw [Option.isSome_or, closeResult_isSome helapsed, Bool.or_true]

/-- A late drain closes nothing more. -/
theorem closesLeft_of_pollCloses {closes closes' : Closes} {handles : List Handle}
    (h : s.pollCloses .poll closes = some (handles, closes')) :
    closesLeft closes' < closesLeft closes := by
  unfold pollCloses at h
  split at h
  · cases h
  · cases h
    exact Nat.one_pos
  · rw [if_pos helapsed] at h
    cases h
    exact Nat.one_pos
  · dsimp only at h
    split at h
    · cases h
      exact Nat.lt_succ_self 1
    · rename_i results _ _ hall
      exact absurd (all_isSome helapsed results) hall

theorem done_of_pollCloses {closes : Closes} (h : s.pollCloses .poll closes = none) :
    ∃ outcome, closes = .done outcome := by
  unfold pollCloses at h
  split at h
  · exact ⟨_, rfl⟩
  · cases h
  · rw [if_pos helapsed] at h
    cases h
  · rename_i results _ _
    dsimp only at h
    rw [if_pos (all_isSome helapsed results)] at h
    cases h

end

theorem toEnd_work {startupError : Option ServerError} {fatal : Option Text}
    {listenerError : Option ServerError} {closes : Closes} {call : Nat}
    {accept : Option (Option AcceptOutcome)} (helapsed : s.drainElapsed = true)
    (hc : s.coordinator = .draining startupError fatal (.working listenerError closes call accept))
    (hgated : Gated s.admission s.coordinator) :
    (s.work setup startupError fatal listenerError closes call accept .poll).toEnd <
      closesLeft closes + AdmissionGate.stepsOf AdmissionGate.Call.drainSteps call s.admission +
        acceptLeft accept + 5 := by
  rw [hc] at hgated
  unfold work
  cases hcloses : s.pollCloses .poll closes with
  | some moved =>
    have := closesLeft_of_pollCloses helapsed hcloses
    dsimp only [toEnd]
    omega
  | none =>
    obtain ⟨registry, rfl⟩ := done_of_pollCloses helapsed hcloses
    dsimp only
    split
    · rename_i hcan
      unfold canStep at hcan
      split at hcan
      · rename_i t ht
        have hless := AdmissionGate.stepsOf_run setup.maxConcurrentRequests
          (fun _ _ _ _ => AdmissionGate.drainSteps_of_next) hgated.2.makes ht hcan
        unfold toEnd stepGate
        dsimp only
        rw [hc]
        dsimp only
        omega
      · cases hcan
    · have hend : ∀ (s' : Running) result,
          toEnd { s' with coordinator := endOfDrain startupError result } <
            closesLeft (.done registry) +
              AdmissionGate.stepsOf AdmissionGate.Call.drainSteps call s.admission +
              acceptLeft accept + 5 := fun s' result => by
        have := toEnd_endOfDrain (s := s') startupError result
        omega
      split
      · dsimp only [toEnd, acceptLeft]
        omega
      · split
        · exact hend s _
        · exact hend { s.stepGate setup call .cancel with forceCancel := true } _

/-- The deadline of the drain has passed, or the drain is over. -/
structure Late (s : Running) : Prop where
  due : isDue s.coordinator = true
  elapsed : s.hasDeadline = true → s.drainElapsed = true

theorem drainElapsed_of_step {s' : Running} (hstep : Step setup s s')
    (h : s.drainElapsed = true) : s'.drainElapsed = true := by
  cases hstep <;> first | exact h | rfl

theorem hasDeadline_of_step {s' : Running} (hstep : Step setup s s')
    (h : isDue s.coordinator = true) (hdeadline : s'.hasDeadline = true) :
    s.hasDeadline = true := by
  unfold hasDeadline at hdeadline ⊢
  cases hstep with
  | accepting hc | registering hc | prepared hc | preparationFailed hc | preparedAll hc
  | startupFailed hc | activationTaken hc | activationPending hc | activatedAll hc
  | storingReady hc | settingReady hc | announcing hc | servingEnds hc | drainStores hc
  | drainBegins hc | gateClosed hc =>
    rw [hc] at h
    cases h
  | commandSent hc | listenerClosed hc | listenerLost hc | listenerLate hc | published hc
  | closesMove hc | outcomeReceived hc | workDone hc | workLate hc => rw [hc]
  | failing | storingStopped | settingStopped | completing => cases hdeadline
  | _ => exact hdeadline

theorem late_of_isDue (setup : Setup) (h : isDue s.coordinator = true) :
    Late (s.step setup .deadlineElapses) := by
  unfold step
  dsimp only
  split
  · exact ⟨h, fun _ => rfl⟩
  · rename_i hdeadline
    exact ⟨h, fun hhas => absurd hhas hdeadline⟩

theorem Late.step {s' : Running} (h : Late s) (hstep : Step setup s s') : Late s' :=
  ⟨isDue_of_step hstep h.due, fun hdeadline =>
    drainElapsed_of_step hstep (h.elapsed (hasDeadline_of_step hstep h.due hdeadline))⟩

/-- The work of a drain that begins late. -/
theorem toEnd_working (state : ServerState) (startupError : Option ServerError)
    (fatal : Option Text) (listenerError : Option ServerError) (rest : List (List Nat))
    (outcome : CloseOutcome) :
    toEnd { s.spawnGate setup .drained with
      state
      coordinator := .draining startupError fatal
        (.working listenerError (.batches rest outcome) s.admission.threads.length none) } = 9 := by
  have hnew := AdmissionGate.stepsOf_new setup.maxConcurrentRequests AdmissionGate.Call.drainSteps
    .drained s.admission
  show 1 + AdmissionGate.stepsOf AdmissionGate.Call.drainSteps s.admission.threads.length
    ((gate setup.maxConcurrentRequests).step s.admission (.spawn .drained)) + 1 + 5 = 9
  rw [hnew]
  rfl

theorem toEnd_listener (helapsed : s.drainElapsed = true) (startupError : Option ServerError)
    (fatal : Option Text) :
    (s.drain setup startupError fatal .poll .listener).toEnd ≤ 10 := by
  unfold drain
  dsimp only
  split
  · exact Nat.le_refl 10
  · exact Nat.le_trans (Nat.le_of_eq (toEnd_working s.state ..)) (Nat.le_succ 9)
  · rw [if_pos helapsed]
    have hend := toEnd_endOfDrain (s := { s with forceCancel := true }) startupError
      (.error deadlineElapsed)
    exact Nat.le_trans hend (Nat.le_add_left 4 6)

theorem toEnd_poll (h : Late s) (hgated : Gated s.admission s.coordinator) :
    (s.poll setup .poll).toEnd ≤ s.toEnd - 1 := by
  obtain ⟨hdue, helapsed⟩ := h
  unfold hasDeadline at helapsed
  unfold toEnd poll
  cases hc : s.coordinator with
  | draining startupError fatal stage =>
    rw [hc] at hdue helapsed
    cases stage with
    | storing | beginning | closing => cases hdue
    | sending => exact Nat.le_refl _
    | listener => exact toEnd_listener (helapsed rfl) startupError fatal
    | publishing => exact Nat.le_of_eq (toEnd_working .draining ..)
    | working listenerError closes call accept =>
      exact Nat.le_sub_one_of_lt (toEnd_work (helapsed rfl) hc hgated)
  | failing | storingStopped | settingStopped | completing => exact Nat.le_refl _
  | finished =>
    dsimp only
    rw [hc]
  | _ =>
    rw [hc] at hdue
    cases hdue

theorem finished_of_toEnd (hdue : isDue s.coordinator = true) (h : s.toEnd = 0) :
    s.coordinator = .finished := by
  unfold toEnd at h
  cases hc : s.coordinator with
  | finished => rfl
  | draining startupError fatal stage =>
    rw [hc] at hdue h
    cases stage with
    | storing | beginning | closing => cases hdue
    | _ => cases h
  | failing | storingStopped | settingStopped | completing =>
    rw [hc] at h
    cases h
  | _ =>
    rw [hc] at hdue
    cases hdue

end Running

open Running in
/-- **A shutdown ends, whoever hangs.**  Once it is asked for, in whatever state, it takes the
coordinator its own polls and the deadline of the drain to stop. -/
theorem shutdown_ends (setup : Setup) (es : List ServerEvent) :
    let s := (server setup).run (es ++ [.shutdown] ++ polls (setup.registrations.length + 10) ++
      [.deadlineElapses] ++ polls 12)
    s.state = .stopped ∧ ∃ result, s.completion = some result := by
  -- up to the deadline
  have hshutdown : ((server setup).run (es ++ [.shutdown])).shutdown = true := by
    rw [Machine.run_concat]
    rfl
  obtain ⟨-, hdue⟩ := (server setup).countdown (fun s => s.shutdown = true)
    (Running.toDeadline setup) (.coordinator .poll) hshutdown
    (fun es h => ⟨shutdown_of_step step_poll h, toDeadline_poll h (gated_run es)⟩)
    (setup.registrations.length + 10)
  have hzero := Nat.le_zero.mp (Nat.le_trans hdue
    (Nat.le_of_eq (Nat.sub_eq_zero_of_le (toDeadline_le setup _))))
  -- from the deadline on
  have hlate : Late ((server setup).run (es ++ [.shutdown] ++
      polls (setup.registrations.length + 10) ++ [.deadlineElapses])) := by
    rw [Machine.run_concat]
    exact late_of_isDue setup (isDue_of_toDeadline hzero)
  obtain ⟨hlate', hend⟩ := (server setup).countdown Late Running.toEnd (.coordinator .poll) hlate
    (fun es h => ⟨h.step step_poll, toEnd_poll h (gated_run es)⟩) 12
  have hzero' := Nat.le_zero.mp (Nat.le_trans hend
    (Nat.le_of_eq (Nat.sub_eq_zero_of_le (toEnd_le _))))
  have hcells := @published_run setup (es ++ [.shutdown] ++
    polls (setup.registrations.length + 10) ++ [.deadlineElapses] ++
    List.replicate 12 (.coordinator .poll))
  rw [finished_of_toEnd hlate'.due hzero'] at hcells
  obtain ⟨result, -, hstate, -, hcompletion⟩ := hcells
  exact ⟨hstate, result, hcompletion⟩

end Fusen.Server
