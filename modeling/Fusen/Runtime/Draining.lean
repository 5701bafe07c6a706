import Fusen.Runtime.Admission

/-!
# The gate of a runtime that drains

A runtime drains by two calls of its own at its gate: `begin_draining`, and `drained` once that
has returned.  What it learns from them is `GateShut`, nobody passes the gate any more, and
`GateEmpty`, nobody is behind it either (`gateShut_of_returned`, `gateEmpty_of_returned`).
-/

namespace Fusen.Runtime

open Lib AdmissionGate

/-- The gate has left `RUNNING`. -/
def GateShut (p : Pool AdmissionGate Call) : Prop := p.shared.state ≠ .running

/-- Nobody has a guard, and nobody is about to get one. -/
def GateEmpty (p : Pool AdmissionGate Call) : Prop := Barred (fun _ => True) p

namespace AdmissionGate

/-- A call of `begin_draining`. -/
def Call.closes : Call → Bool
  | .beginDraining | .closePermits .beginDraining | .closeNotify .beginDraining
  | .finished (.changed _) => true
  | _ => false

/-- A call of `close`. -/
def Call.shuts : Call → Bool
  | .close | .closePermits .close | .closeNotify .close | .finished .closed => true
  | _ => false

/-- A call of `drained` that is not cancelled. -/
def Call.drains : Call → Bool
  | .drained | .loadActive _ | .parked _ | .finished .drained => true
  | _ => false

/-- A call that no request makes. -/
def Call.isOwn : Call → Bool
  | .beginDraining | .closePermits _ | .closeNotify _ | .close | .finished (.changed _)
  | .finished .closed | .drained | .loadActive _ | .parked _ | .finished .drained
  | .finished .cancelled => true
  | _ => false

section

variable {g g' : AdmissionGate} {t t' : Call} {e : Action}

theorem closes_of_next (h : next g t .run = some (g', t')) (hcall : t.closes = true) :
    t'.closes = true := by
  cases step_of_next h with
  | beginDraining => rfl
  | beginDrainingLate => rfl
  | @closePermits c =>
    cases c with
    | beginDraining => rfl
    | close => cases hcall
  | @closeNotify c =>
    cases c with
    | beginDraining => rfl
    | close => cases hcall
  | releaseLast ht | releaseOther ht => rcases ht with rfl | rfl <;> cases hcall
  | _ => cases hcall

theorem shuts_of_next (h : next g t .run = some (g', t')) (hcall : t.shuts = true) :
    t'.shuts = true := by
  cases step_of_next h with
  | close => rfl
  | @closePermits c =>
    cases c with
    | beginDraining => cases hcall
    | close => rfl
  | @closeNotify c =>
    cases c with
    | beginDraining => cases hcall
    | close => rfl
  | releaseLast ht | releaseOther ht => rcases ht with rfl | rfl <;> cases hcall
  | _ => cases hcall

theorem drains_of_next (h : next g t .run = some (g', t')) (hcall : t.drains = true) :
    t'.drains = true := by
  cases step_of_next h with
  | drained => rfl
  | loadActiveNone => rfl
  | loadActive => rfl
  | parked => rfl
  | releaseLast ht | releaseOther ht => rcases ht with rfl | rfl <;> cases hcall
  | _ => cases hcall

theorem isOwn_of_next (h : next g t e = some (g', t')) (hcall : t.isOwn = true) :
    t'.isOwn = true := by
  cases step_of_next h with
  | @closeNotify c => cases c <;> rfl
  | releaseLast ht | releaseOther ht => rcases ht with rfl | rfl <;> cases hcall
  | _ => first | rfl | cases hcall

end

/-- The call `k` at the gate is of this kind. -/
def Makes (kind : Call → Bool) (k : Nat) (p : Pool AdmissionGate Call) : Prop :=
  ∃ t, p.threads[k]? = some t ∧ kind t = true

section

variable {kind : Call → Bool} {k : Nat} {p : Pool AdmissionGate Call} {limit : PermitCount}

/-- A new call is of its own kind. -/
theorem makes_new (p : Pool AdmissionGate Call) {own : Kind} (h : kind (start own) = true) :
    Makes kind p.threads.length ((gate limit).step p (.spawn own)) :=
  ⟨start own, getElem?_concat_iff.mpr (.inr ⟨rfl, rfl⟩), h⟩

/-- A call stays of its kind if it is run, and if others move. -/
theorem makes_step (hkeep : ∀ g g' t t', next g t .run = some (g', t') → kind t = true →
    kind t' = true) (hk : Makes kind k p) {ev : Event Kind Action}
    (hev : ∀ e, ev = .act k e → e = .run) : Makes kind k ((gate limit).step p ev) := by
  obtain ⟨t, ht, hkind⟩ := hk
  rcases (gate limit).step_cases p ev with hs | ⟨other, -, hs⟩ | ⟨i, e, u, s', u', rfl, hi, hn, hs⟩
  · rw [hs]
    exact ⟨t, ht, hkind⟩
  · rw [hs]
    exact ⟨t, getElem?_concat_iff.mpr (.inl ht), hkind⟩
  · rw [hs]
    by_cases hik : k = i
    · subst hik
      obtain rfl := hev e rfl
      obtain rfl : t = u := Option.some.inj (ht.symm.trans hi)
      exact ⟨u', (getElem?_set_iff hi).mpr (.inl ⟨rfl, rfl⟩), hkeep _ _ _ _ hn hkind⟩
    · exact ⟨t, (getElem?_set_iff hi).mpr (.inr ⟨hik, ht⟩), hkind⟩

end

end AdmissionGate

variable {limit : PermitCount} {es : List (Event Kind Action)}

theorem gateShut_run (h : GateShut ((gate limit).run es)) (later : List (Event Kind Action)) :
    GateShut ((gate limit).run (es ++ later)) := by
  have hbarred : Barred (fun _ => False) ((gate limit).run es) := ⟨h, fun _ => False.elim⟩
  exact (barred_run hbarred later).state

theorem gateEmpty_run (h : GateEmpty ((gate limit).run es)) (later : List (Event Kind Action)) :
    GateEmpty ((gate limit).run (es ++ later)) :=
  barred_run h later

/-- The call `k` has returned. -/
def Returned (k : Nat) (p : Pool AdmissionGate Call) : Prop :=
  ∃ outcome, p.threads[k]? = some (.finished outcome)

/-- **What `begin_draining` is for.** -/
theorem gateShut_of_returned {k : Nat} (hk : Makes Call.closes k ((gate limit).run es))
    (hreturned : Returned k ((gate limit).run es)) : GateShut ((gate limit).run es) := by
  obtain ⟨t, ht, hcloses⟩ := hk
  obtain ⟨outcome, hout⟩ := hreturned
  obtain rfl : t = .finished outcome := Option.some.inj (ht.symm.trans hout)
  refine leaves_run es _ (List.mem_of_getElem? ht) ?_
  cases outcome with
  | changed b => rfl
  | _ => cases hcloses

/-- A call of `drained` that began once the gate was shut. -/
structure Draining (k : Nat) (p : Pool AdmissionGate Call) : Prop where
  makes : Makes Call.drains k p
  awaited : Awaited k p

theorem draining_new (h : GateShut ((gate limit).run es)) :
    Draining ((gate limit).run es).threads.length ((gate limit).run (es ++ [.spawn .drained])) := by
  rw [Threads.run_concat]
  refine ⟨makes_new _ rfl, h, fun hnew => ?_⟩
  rcases getElem?_concat_iff.mp hnew with hnew | ⟨-, hnew⟩
  · rw [List.getElem?_eq_none (Nat.le_refl _)] at hnew
    cases hnew
  · cases hnew

theorem draining_step {k : Nat} (h : Draining k ((gate limit).run es)) {ev : Event Kind Action}
    (hev : ∀ e, ev = .act k e → e = .run) : Draining k ((gate limit).run (es ++ [ev])) := by
  refine ⟨?_, awaited_run h.awaited [ev]⟩
  rw [Threads.run_concat]
  exact makes_step (fun _ _ _ _ => drains_of_next) h.makes hev

/-- **What `drained` is for.** -/
theorem Draining.gateEmpty {k : Nat} {p : Pool AdmissionGate Call} (h : Draining k p)
    (hreturned : Returned k p) : GateEmpty p := by
  obtain ⟨t, ht, hdrains⟩ := h.makes
  obtain ⟨outcome, hout⟩ := hreturned
  obtain rfl : t = .finished outcome := Option.some.inj (ht.symm.trans hout)
  cases outcome with
  | drained => exact h.awaited.barred ht
  | _ => cases hdrains

/-! ## A gate within a larger system -/

/-- The pool comes from a run of the gate. -/
def GateRun (limit : PermitCount) (p : Pool AdmissionGate Call) : Prop :=
  ∃ es, p = (gate limit).run es

/-- A step of the larger system is at most a step at its gate. -/
def GateMoves (limit : PermitCount) (p p' : Pool AdmissionGate Call) : Prop :=
  p' = p ∨ ∃ ev, p' = (gate limit).step p ev

section

variable {p p' : Pool AdmissionGate Call} {k : Nat}

theorem GateRun.step (h : GateRun limit p) (ev : Event Kind Action) :
    GateRun limit ((gate limit).step p ev) := by
  obtain ⟨es, rfl⟩ := h
  exact ⟨es ++ [ev], ((gate limit).run_concat es ev).symm⟩

theorem GateRun.moves (h : GateRun limit p) (hm : GateMoves limit p p') : GateRun limit p' := by
  rcases hm with rfl | ⟨ev, rfl⟩
  · exact h
  · exact h.step ev

/-- What the runs of the gate keep, the larger system keeps. -/
theorem GateRun.keeps {P : Pool AdmissionGate Call → Prop}
    (hP : ∀ es later, P ((gate limit).run es) → P ((gate limit).run (es ++ later)))
    (h : GateRun limit p) (hm : GateMoves limit p p') (hp : P p) : P p' := by
  rcases hm with rfl | ⟨ev, rfl⟩
  · exact hp
  · obtain ⟨es, rfl⟩ := h
    rw [← Threads.run_concat]
    exact hP es [ev] hp

theorem GateRun.shut (h : GateRun limit p) (hm : GateMoves limit p p') (hp : GateShut p) :
    GateShut p' :=
  h.keeps (fun _ later hp => gateShut_run hp later) hm hp

theorem GateRun.empty (h : GateRun limit p) (hm : GateMoves limit p p') (hp : GateEmpty p) :
    GateEmpty p' :=
  h.keeps (fun _ later hp => gateEmpty_run hp later) hm hp

theorem GateRun.shut_of_returned (h : GateRun limit p) (hk : Makes Call.closes k p)
    (hreturned : Returned k p) : GateShut p := by
  obtain ⟨es, rfl⟩ := h
  exact gateShut_of_returned hk hreturned

theorem GateRun.draining_new (h : GateRun limit p) (hp : GateShut p) :
    Draining p.threads.length ((gate limit).step p (.spawn .drained)) := by
  obtain ⟨es, rfl⟩ := h
  rw [← Threads.run_concat]
  exact Runtime.draining_new hp

theorem GateRun.draining_step (h : GateRun limit p) (hd : Draining k p) {ev : Event Kind Action}
    (hev : ∀ e, ev = .act k e → e = .run) : Draining k ((gate limit).step p ev) := by
  obtain ⟨es, rfl⟩ := h
  rw [← Threads.run_concat]
  exact Runtime.draining_step hd hev

end

/-! ## How long the two calls take -/

namespace AdmissionGate

/-- How many steps `begin_draining` or `close` still takes. -/
def Call.closeSteps (_ : AdmissionGate) : Call → Nat
  | .beginDraining | .close => 3
  | .closePermits _ => 2
  | .closeNotify _ => 1
  | _ => 0

/-- How many steps `drained` still takes until it has returned or waits, if nobody else moves. -/
def Call.drainSteps (g : AdmissionGate) : Call → Nat
  | .drained => 2
  | .loadActive f => if g.changed.delivered f then 4 else 1
  | .parked f => if g.changed.delivered f then 3 else 0
  | _ => 0

section

variable {g g' : AdmissionGate} {t t' : Call}

theorem closeSteps_of_next (h : next g t .run = some (g', t'))
    (hcall : t.closes = true ∨ t.shuts = true) : t'.closeSteps g' < t.closeSteps g := by
  cases step_of_next h with
  | beginDraining => exact Nat.lt_succ_self 2
  | beginDrainingLate => exact Nat.succ_pos 2
  | close => exact Nat.lt_succ_self 2
  | closePermits => exact Nat.lt_succ_self 1
  | closeNotify => exact Nat.succ_pos 0
  | releaseLast ht | releaseOther ht =>
    rcases ht with rfl | rfl <;> rcases hcall with hcall | hcall <;> cases hcall
  | _ => rcases hcall with hcall | hcall <;> cases hcall

theorem drainSteps_of_next (h : next g t .run = some (g', t')) (hcall : t.drains = true) :
    t'.drainSteps g' < t.drainSteps g := by
  cases step_of_next h with
  | drained =>
    have hfresh : g.changed.delivered g.changed.notified = false :=
      Notify.delivered_eq_false_iff.mpr rfl
    simp [Call.drainSteps, hfresh]
  | loadActiveNone =>
    simp only [Call.drainSteps]
    split <;> omega
  | loadActive =>
    simp only [Call.drainSteps]
    split <;> omega
  | parked hdelivered => simp [Call.drainSteps, hdelivered]
  | releaseLast ht | releaseOther ht => rcases ht with rfl | rfl <;> cases hcall
  | _ => cases hcall

/-- `begin_draining` and `close` wait for nobody. -/
theorem next_of_closes (g : AdmissionGate) (hcall : t.closes = true ∨ t.shuts = true)
    (hreturned : ∀ outcome, t ≠ .finished outcome) : (next g t .run).isSome = true := by
  cases t with
  | beginDraining =>
    by_cases hstate : g.state = .running
    · simp [next, hstate]
    · simp [next, hstate]
  | close => rfl
  | closePermits c => rfl
  | closeNotify c => rfl
  | finished outcome => exact absurd rfl (hreturned outcome)
  | _ => rcases hcall with hcall | hcall <;> cases hcall

end

/-- The steps that the call `k` still takes. -/
def stepsOf (steps : AdmissionGate → Call → Nat) (k : Nat) (p : Pool AdmissionGate Call) : Nat :=
  match p.threads[k]? with
  | some t => steps p.shared t
  | none => 0

theorem closeSteps_le (k : Nat) (p : Pool AdmissionGate Call) :
    stepsOf Call.closeSteps k p ≤ 3 := by
  unfold stepsOf
  split
  · rename_i call _
    cases call <;> simp [Call.closeSteps]
  · exact Nat.zero_le 3

theorem drainSteps_le (k : Nat) (p : Pool AdmissionGate Call) :
    stepsOf Call.drainSteps k p ≤ 4 := by
  unfold stepsOf
  split
  · rename_i call _
    cases call with
    | loadActive f | parked f =>
      unfold Call.drainSteps
      dsimp only
      split <;> omega
    | drained => exact Nat.le_add_left 2 2
    | _ => exact Nat.zero_le 4
  · exact Nat.zero_le 4

theorem stepsOf_run (limit : PermitCount) {steps : AdmissionGate → Call → Nat} {kind : Call → Bool}
    {k : Nat} {p : Pool AdmissionGate Call} {t : Call}
    (hless : ∀ g g' t t', next g t .run = some (g', t') → kind t = true → steps g' t' < steps g t)
    (hk : Makes kind k p) (ht : p.threads[k]? = some t)
    (hnext : (next p.shared t .run).isSome = true) :
    stepsOf steps k ((gate limit).step p (.act k .run)) < stepsOf steps k p := by
  obtain ⟨t₀, ht₀, hkind⟩ := hk
  obtain rfl : t₀ = t := Option.some.inj (ht₀.symm.trans ht)
  obtain ⟨⟨g', t'⟩, hstep⟩ := Option.isSome_iff_exists.mp hnext
  have heq : (gate limit).step p (.act k .run) = ⟨g', p.threads.set k t'⟩ := by
    unfold Threads.step
    dsimp only
    rw [ht]
    dsimp only
    rw [show (gate limit).next p.shared t₀ .run = some (g', t') from hstep]
  have hset : (p.threads.set k t')[k]? = some t' :=
    (getElem?_set_iff ht).mpr (.inl ⟨rfl, rfl⟩)
  rw [heq]
  unfold stepsOf
  rw [ht, hset]
  exact hless _ _ _ _ hstep hkind

theorem stepsOf_new (limit : PermitCount) (steps : AdmissionGate → Call → Nat) (kind : Kind)
    (p : Pool AdmissionGate Call) :
    stepsOf steps p.threads.length ((gate limit).step p (.spawn kind)) =
      steps p.shared (start kind) := by
  have hnew : ((gate limit).step p (.spawn kind)).threads[p.threads.length]? = some (start kind) :=
    getElem?_concat_iff.mpr (.inr ⟨rfl, rfl⟩)
  unfold stepsOf
  rw [hnew]
  rfl

end AdmissionGate

end Fusen.Runtime
