import Fusen.Lib.Machine
import Fusen.Resilience.Breaker

/-!
# Whole runs of one circuit breaker

A run interleaves `try_acquire` calls and permit completions in any order, each
with its own clock reading; a permit may be finished with any outcome, or never.
`BreakerRun` is the breaker together with what stands outside its mutex: the
permits callers still hold, and a log of the completions, transitions and open
periods seen so far.  The log is not read by the code.

`Inv` couples the two sides: `in_flight` and the success streak are counts over
the permits issued since the last transition.  It holds as long as the `u64`
epoch has not wrapped, i.e. for fewer than 2⁶⁴ transitions.
-/

namespace Fusen.Resilience

/-- A permit in a caller's hands, with the number of transitions before its issue. -/
structure Held where
  token : PermitToken
  issued : Nat
deriving DecidableEq, Repr

structure Finished where
  issued : Nat
  impact : BreakerImpact
deriving DecidableEq, Repr

/-- Lists are newest first; `opened` has the length of every `Open` period entered. -/
structure BreakerRun where
  inner : BreakerInner
  held : List Held
  finished : List Finished
  notified : List BreakerPhase
  opened : List Nat

inductive BreakerEvent
  | tryAcquire (now : Nat)
  | finish (permit : Nat) (outcome : PermitOutcome) (now : Nat)
deriving DecidableEq, Repr

def BreakerEvent.now : BreakerEvent → Nat
  | .tryAcquire now => now
  | .finish _ _ now => now

namespace BreakerRun

/-- The number of state changes so far. -/
def changes (s : BreakerRun) : Nat := s.notified.length

/-- Held permits of the current epoch. -/
def outstanding (s : BreakerRun) : Nat := s.held.countP fun h => h.issued = s.changes

/-- Completions of impact `i` among the permits of epoch `e`. -/
def ended (s : BreakerRun) (e : Nat) (i : BreakerImpact) : Nat :=
  s.finished.countP fun f => f.issued = e ∧ f.impact = i

/-- Takes over what a critical section entered at `now` left behind. -/
def observe {α : Type} (s : BreakerRun) (now : Nat) (r : Locked α) : BreakerRun :=
  { s with
    inner := r.inner
    notified := r.transition.toList ++ s.notified
    opened := match r.transition with
      | some .opened => (snapshot now r.inner).retryAfter.toList ++ s.opened
      | _ => s.opened }

/-- The permit at index `permit` has been finished. -/
def retire (s : BreakerRun) (permit : Nat) (h : Held) (i : BreakerImpact) : BreakerRun :=
  { s with
    held := s.held.eraseIdx permit
    finished := ⟨h.issued, i⟩ :: s.finished }

def issue (s : BreakerRun) (token : PermitToken) : BreakerRun :=
  { s with held := ⟨token, s.changes⟩ :: s.held }

/-- Another state in the same epoch. -/
def withState (s : BreakerRun) (st : MachineState) : BreakerRun :=
  { s with inner := ⟨s.inner.epoch, st⟩ }

def step (config : BreakerConfig) (s : BreakerRun) : BreakerEvent → BreakerRun
  | .tryAcquire now =>
    let r := tryAcquire config now s.inner
    match r.result with
    | .ok token => (s.observe now r).issue token
    | .error _ => s.observe now r
  | .finish permit outcome now =>
    match s.held[permit]? with
    | none => s
    | some h =>
      (s.observe now (complete config now h.token outcome s.inner)).retire permit h outcome.impact

def machine (config : BreakerConfig) (start : Nat) : Lib.Machine BreakerRun BreakerEvent where
  init := ⟨.new config start, [], [], [], []⟩
  step := step config

/-! ## What one critical section can do -/

theorem tryAcquire_cases (config : BreakerConfig) (now : Nat) (inner : BreakerInner) :
    (∃ w, inner.state = .closed w ∧ tryAcquire config now inner =
      ⟨⟨inner.epoch, .closed (w.advance now)⟩, .ok ⟨inner.epoch, .closed⟩, none⟩) ∨
    (∃ u d, inner.state = .opened u d ∧ now < u ∧
      tryAcquire config now inner = ⟨inner, .error (.opened (u - now)), none⟩) ∨
    (∃ u d, inner.state = .opened u d ∧ u ≤ now ∧ tryAcquire config now inner =
      ⟨⟨wrappingSucc inner.epoch, .halfOpen 1 0 d⟩, .ok ⟨wrappingSucc inner.epoch, .halfOpen⟩,
        some .halfOpen⟩) ∨
    (∃ n k p, inner.state = .halfOpen n k p ∧ config.halfOpenConcurrency ≤ n ∧
      tryAcquire config now inner = ⟨inner, .error .halfOpenSaturated, none⟩) ∨
    (∃ n k p, inner.state = .halfOpen n k p ∧ n < config.halfOpenConcurrency ∧
      tryAcquire config now inner =
        ⟨⟨inner.epoch, .halfOpen (n + 1) k p⟩, .ok ⟨inner.epoch, .halfOpen⟩, none⟩) := by
  obtain ⟨epoch, state⟩ := inner
  have hc := config.halfOpenConcurrency_pos
  cases state with
  | closed w => exact .inl ⟨w, rfl, rfl⟩
  | opened u d =>
    by_cases h : u ≤ now
    · refine .inr (.inr (.inl ⟨u, d, rfl, h, ?_⟩))
      simp only [tryAcquire, acquireHalfOpen]
      rw [if_pos h, if_neg (by omega)]
    · exact .inr (.inl ⟨u, d, rfl, by omega, by simp [tryAcquire, h]⟩)
  | halfOpen n k p =>
    by_cases h : config.halfOpenConcurrency ≤ n
    · refine .inr (.inr (.inr (.inl ⟨n, k, p, rfl, h, ?_⟩)))
      simp [tryAcquire, acquireHalfOpen, h]
    · refine .inr (.inr (.inr (.inr ⟨n, k, p, rfl, by omega, ?_⟩)))
      simp [tryAcquire, acquireHalfOpen, h]

/-- A permit of the current closed state either records into the window or opens. -/
theorem completeClosed_cases (config : BreakerConfig) (epoch now : Nat) (w : RollingWindow)
    (i : BreakerImpact) :
    (∃ w', completeClosed config ⟨epoch, .closed w⟩ now i = ⟨⟨epoch, .closed w'⟩, (), none⟩ ∧
      (i = .ignore ∨ i = .unattempted → w' = w.advance now)) ∨
    (i = .failure ∧ completeClosed config ⟨epoch, .closed w⟩ now i =
      enterOpen epoch now config.initialOpenDuration) := by
  cases i with
  | success => exact .inl ⟨_, rfl, by simp⟩
  | failure =>
    simp only [completeClosed]
    split
    · exact .inr ⟨trivial, rfl⟩
    · exact .inl ⟨_, rfl, by simp⟩
  | ignore => exact .inl ⟨_, rfl, fun _ => rfl⟩
  | unattempted => exact .inl ⟨_, rfl, fun _ => rfl⟩

/-- A probe counts towards closing, closes, reopens, or only leaves. -/
theorem completeHalfOpen_cases (config : BreakerConfig) (epoch now n k p : Nat)
    (hk : k < config.closeSuccesses) (i : BreakerImpact) :
    (i = .success ∧ k + 1 < config.closeSuccesses ∧
      completeHalfOpen config ⟨epoch, .halfOpen n k p⟩ now i =
        ⟨⟨epoch, .halfOpen (n - 1) (k + 1) p⟩, (), none⟩) ∨
    (i = .success ∧ k + 1 = config.closeSuccesses ∧
      completeHalfOpen config ⟨epoch, .halfOpen n k p⟩ now i =
        ⟨⟨wrappingSucc epoch, .closed (.new config now)⟩, (), some .closed⟩) ∨
    (i = .failure ∧ completeHalfOpen config ⟨epoch, .halfOpen n k p⟩ now i =
      enterOpen epoch now (min (2 * p) config.maxOpenDuration)) ∨
    ((i = .ignore ∨ i = .unattempted) ∧ completeHalfOpen config ⟨epoch, .halfOpen n k p⟩ now i =
      ⟨⟨epoch, .halfOpen (n - 1) k p⟩, (), none⟩) := by
  have hle := config.closeSuccesses_le
  have hmin : min (k + 1) u32Max = k + 1 := by omega
  cases i with
  | success =>
    simp only [completeHalfOpen, hmin]
    by_cases h : config.closeSuccesses ≤ k + 1
    · rw [if_pos h]
      exact .inr (.inl ⟨trivial, by omega, rfl⟩)
    · rw [if_neg h]
      exact .inl ⟨trivial, by omega, rfl⟩
  | failure =>
    simp only [completeHalfOpen, config.nextOpenDuration_eq]
    exact .inr (.inr (.inl ⟨trivial, trivial⟩))
  | ignore => exact .inr (.inr (.inr ⟨.inl rfl, rfl⟩))
  | unattempted => exact .inr (.inr (.inr ⟨.inr rfl, rfl⟩))

/-- A permit of another epoch is not looked at. -/
theorem complete_stale (config : BreakerConfig) (now : Nat) (t : PermitToken) (o : PermitOutcome)
    (inner : BreakerInner) (h : t.epoch ≠ inner.epoch) :
    complete config now t o inner = ⟨inner, (), none⟩ := by
  simp [complete, h]

/-! ## The invariant -/

/-- What a half-open state knows about the permits of its epoch. -/
structure Probes (config : BreakerConfig) (s : BreakerRun) (n k p : Nat) : Prop where
  inFlight : n = s.outstanding
  inFlight_le : n ≤ config.halfOpenConcurrency
  streak : k = s.ended s.changes .success
  streak_lt : k < config.closeSuccesses
  noFailure : s.ended s.changes .failure = 0
  previous : s.opened.head? = some p

structure Inv (config : BreakerConfig) (s : BreakerRun) : Prop where
  epoch : s.inner.epoch = s.changes
  finished_le : ∀ f ∈ s.finished, f.issued ≤ s.changes
  held_le : ∀ h ∈ s.held, h.token.epoch = h.issued ∧ h.issued ≤ s.changes
  closed : ∀ h ∈ s.held, h.issued = s.changes → h.token.phase = .closed →
    ∃ w, s.inner.state = .closed w
  halfOpen : ∀ h ∈ s.held, h.issued = s.changes → h.token.phase = .halfOpen →
    ∃ n k p, s.inner.state = .halfOpen n k p
  opened : ∀ u d, s.inner.state = .opened u d → s.opened.head? = some d
  probes : ∀ n k p, s.inner.state = .halfOpen n k p → Probes config s n k p

theorem inv_init (config : BreakerConfig) (start : Nat) : Inv config (machine config start).init where
  epoch := rfl
  finished_le := by simp [machine]
  held_le := by simp [machine]
  closed := by simp [machine]
  halfOpen := by simp [machine]
  opened := by simp [machine, BreakerInner.new]
  probes := by simp [machine, BreakerInner.new]

/-- Nothing of an epoch that has not begun has been issued or finished. -/
theorem ended_fresh {config : BreakerConfig} {s : BreakerRun} (h : Inv config s) (i : BreakerImpact) :
    s.ended (s.changes + 1) i = 0 := by
  unfold ended
  rw [List.countP_eq_zero]
  intro f hf
  have := h.finished_le f hf
  simp only [decide_eq_true_eq]
  omega

theorem held_fresh {config : BreakerConfig} {s : BreakerRun} (h : Inv config s) :
    ∀ x ∈ s.held, x.issued ≠ s.changes + 1 := by
  intro x hx
  have := (h.held_le x hx).2
  omega

theorem wrappingSucc_eq {e : Nat} (h : e + 1 < u64Size) : wrappingSucc e = e + 1 :=
  Nat.mod_eq_of_lt h

/-! ## Counting permits -/

theorem countP_eraseIdx {α : Type} (l : List α) (i : Nat) (a : α) (h : l[i]? = some a)
    (q : α → Bool) : (l.eraseIdx i).countP q + (if q a then 1 else 0) = l.countP q := by
  obtain ⟨hi, ha⟩ := List.getElem?_eq_some_iff.mp h
  have hp := (List.getElem_cons_eraseIdx_perm hi).countP_eq q
  rw [List.countP_cons, ha] at hp
  exact hp

@[simp] theorem changes_retire (s : BreakerRun) (permit : Nat) (x : Held) (i : BreakerImpact) :
    (s.retire permit x i).changes = s.changes := rfl

@[simp] theorem changes_issue (s : BreakerRun) (t : PermitToken) :
    (s.issue t).changes = s.changes := rfl

@[simp] theorem changes_withState (s : BreakerRun) (st : MachineState) :
    (s.withState st).changes = s.changes := rfl

@[simp] theorem outstanding_withState (s : BreakerRun) (st : MachineState) :
    (s.withState st).outstanding = s.outstanding := rfl

@[simp] theorem ended_withState (s : BreakerRun) (st : MachineState) (e : Nat)
    (i : BreakerImpact) : (s.withState st).ended e i = s.ended e i := rfl

theorem outstanding_issue (s : BreakerRun) (t : PermitToken) :
    (s.issue t).outstanding = s.outstanding + 1 := by
  unfold outstanding
  rw [changes_issue]
  simp [issue]

theorem outstanding_retire (s : BreakerRun) (permit : Nat) (x : Held) (i : BreakerImpact)
    (hx : s.held[permit]? = some x) :
    (s.retire permit x i).outstanding + (if x.issued = s.changes then 1 else 0) = s.outstanding := by
  have h := countP_eraseIdx s.held permit x hx fun h => h.issued = s.changes
  simp only [decide_eq_true_eq] at h
  exact h

theorem ended_retire (s : BreakerRun) (permit : Nat) (x : Held) (i j : BreakerImpact) (e : Nat) :
    (s.retire permit x i).ended e j = s.ended e j + if x.issued = e ∧ i = j then 1 else 0 := by
  unfold ended
  simp [retire, List.countP_cons]

/-! ## Every step keeps the invariant -/

/-- Finishing a permit of an earlier epoch keeps the invariant: no count sees it. -/
theorem inv_retire_stale {config : BreakerConfig} {s : BreakerRun} (hs : Inv config s) {permit : Nat}
    {x : Held} (hx : s.held[permit]? = some x) (hlt : x.issued ≠ s.changes) (i : BreakerImpact) :
    Inv config (s.retire permit x i) := by
  have hmem := List.mem_of_getElem? hx
  have hout : (s.retire permit x i).outstanding = s.outstanding := by
    simpa [hlt] using outstanding_retire s permit x i hx
  have hend : ∀ j, (s.retire permit x i).ended s.changes j = s.ended s.changes j := by
    intro j
    simp [ended_retire, hlt]
  refine ⟨hs.epoch, ?_, ?_, ?_, ?_, hs.opened, ?_⟩
  · intro f hf
    rcases List.mem_cons.mp hf with rfl | hf
    · exact (hs.held_le x hmem).2
    · exact hs.finished_le f hf
  · exact fun h hh => hs.held_le h (List.mem_of_mem_eraseIdx hh)
  · exact fun h hh => hs.closed h (List.mem_of_mem_eraseIdx hh)
  · exact fun h hh => hs.halfOpen h (List.mem_of_mem_eraseIdx hh)
  · intro n k p hst
    have hp := hs.probes n k p hst
    exact ⟨hp.inFlight.trans hout.symm, hp.inFlight_le, hp.streak.trans (hend _).symm,
      hp.streak_lt, (hend _).trans hp.noFailure, hp.previous⟩

/-- Finishing a permit of the current closed state, without a transition. -/
theorem inv_retire_closed {config : BreakerConfig} {s : BreakerRun} (hs : Inv config s) {permit : Nat}
    {x : Held} (hx : s.held[permit]? = some x) {w : RollingWindow} (hst : s.inner.state = .closed w)
    (w' : RollingWindow) (i : BreakerImpact) :
    Inv config ((s.withState (.closed w')).retire permit x i) := by
  refine ⟨hs.epoch, ?_, ?_, fun _ _ _ _ => ⟨w', rfl⟩, ?_, by simp [retire, withState],
    by simp [retire, withState]⟩
  · intro f hf
    rcases List.mem_cons.mp hf with rfl | hf
    · exact (hs.held_le x (List.mem_of_getElem? hx)).2
    · exact hs.finished_le f hf
  · exact fun h hh => hs.held_le h (List.mem_of_mem_eraseIdx hh)
  · intro h hh hc hp
    obtain ⟨n, k, p, hbad⟩ := hs.halfOpen h (List.mem_of_mem_eraseIdx hh) hc hp
    rw [hst] at hbad
    cases hbad

/-- Finishing a probe without a transition: it leaves `in_flight`, and joins the
streak if it succeeded. -/
theorem inv_retire_halfOpen {config : BreakerConfig} {s : BreakerRun} (hs : Inv config s)
    {permit : Nat} {x : Held} (hx : s.held[permit]? = some x) (hcur : x.issued = s.changes)
    {n k p : Nat} (hst : s.inner.state = .halfOpen n k p) {i : BreakerImpact} (hi : i ≠ .failure)
    {k' : Nat} (hk : k' = if i = .success then k + 1 else k) (hlt : k' < config.closeSuccesses) :
    Inv config ((s.withState (.halfOpen (n - 1) k' p)).retire permit x i) := by
  have hp := hs.probes n k p hst
  refine ⟨hs.epoch, ?_, ?_, ?_, fun _ _ _ _ => ⟨_, _, _, rfl⟩, by simp [retire, withState],
    ?_⟩
  · intro f hf
    rcases List.mem_cons.mp hf with rfl | hf
    · exact (hs.held_le x (List.mem_of_getElem? hx)).2
    · exact hs.finished_le f hf
  · exact fun h hh => hs.held_le h (List.mem_of_mem_eraseIdx hh)
  · intro h hh hc hph
    obtain ⟨w, hbad⟩ := hs.closed h (List.mem_of_mem_eraseIdx hh) hc hph
    rw [hst] at hbad
    cases hbad
  · intro n' k'' p' hst'
    simp only [retire, withState, MachineState.halfOpen.injEq] at hst'
    obtain ⟨rfl, rfl, rfl⟩ := hst'
    have hout := outstanding_retire (s.withState (.halfOpen (n - 1) k' p)) permit x i hx
    simp only [hcur, changes_withState, if_true, outstanding_withState, ← hp.inFlight] at hout
    have hle := hp.inFlight_le
    refine ⟨by omega, by omega, ?_, hlt, ?_, hp.previous⟩
    · rw [changes_retire, ended_retire, hk, ended_withState, changes_withState, ← hp.streak]
      by_cases he : i = .success <;> simp [he, hcur]
    · rw [changes_retire, ended_retire, if_neg (fun h => hi h.2)]
      exact hp.noFailure

/-- A transition into `Closed` or `Open` starts an epoch without permits. -/
theorem inv_transition {config : BreakerConfig} {s s' : BreakerRun} (hs : Inv config s)
    (hx : ∃ phase, s'.notified = phase :: s.notified) (hb : s'.changes < u64Size)
    (hepoch : s'.inner.epoch = wrappingSucc s.inner.epoch) (hheld : ∀ h ∈ s'.held, h ∈ s.held)
    (hfin : ∀ f ∈ s'.finished, f.issued ≤ s.changes)
    (hst : (∃ w, s'.inner.state = .closed w) ∨
      ∃ u d, s'.inner.state = .opened u d ∧ s'.opened.head? = some d) : Inv config s' := by
  obtain ⟨phase, hx⟩ := hx
  have hc : s'.changes = s.changes + 1 := by simp [changes, hx]
  have hfresh : ∀ h ∈ s'.held, h.issued ≠ s'.changes := by
    intro h hh
    rw [hc]
    exact held_fresh hs h (hheld h hh)
  refine ⟨?_, ?_, ?_, ?_, ?_, ?_, ?_⟩
  · rw [hepoch, hs.epoch, hc, wrappingSucc_eq (by omega)]
  · intro f hf
    have := hfin f hf
    omega
  · intro h hh
    have := hs.held_le h (hheld h hh)
    exact ⟨this.1, by omega⟩
  · exact fun h hh hcur => absurd hcur (hfresh h hh)
  · exact fun h hh hcur => absurd hcur (hfresh h hh)
  · rintro u d ho
    rcases hst with ⟨w, hw⟩ | ⟨u', d', hu, hd⟩
    · rw [hw] at ho
      cases ho
    · rw [hu] at ho
      cases ho
      exact hd
  · rintro n k p ho
    rcases hst with ⟨w, hw⟩ | ⟨u', d', hu, -⟩
    · rw [hw] at ho
      cases ho
    · rw [hu] at ho
      cases ho

/-- Granting a permit of the current closed state. -/
theorem inv_issue_closed {config : BreakerConfig} {s : BreakerRun} (hs : Inv config s)
    {w : RollingWindow} (hst : s.inner.state = .closed w) (w' : RollingWindow) :
    Inv config ((s.withState (.closed w')).issue ⟨s.inner.epoch, .closed⟩) := by
  refine ⟨hs.epoch, hs.finished_le, ?_, fun _ _ _ _ => ⟨w', rfl⟩, ?_, by simp [issue, withState],
    by simp [issue, withState]⟩
  · intro h hh
    rcases List.mem_cons.mp hh with rfl | hh
    · exact ⟨hs.epoch, Nat.le_refl _⟩
    · exact hs.held_le h hh
  · intro h hh hc hp
    rcases List.mem_cons.mp hh with rfl | hh
    · cases hp
    · obtain ⟨n, k, p, hbad⟩ := hs.halfOpen h hh hc hp
      rw [hst] at hbad
      cases hbad

/-- Granting a probe while some are in flight. -/
theorem inv_issue_halfOpen {config : BreakerConfig} {s : BreakerRun} (hs : Inv config s)
    {n k p : Nat} (hst : s.inner.state = .halfOpen n k p) (hlt : n < config.halfOpenConcurrency) :
    Inv config
      ((s.withState (.halfOpen (n + 1) k p)).issue ⟨s.inner.epoch, .halfOpen⟩) := by
  have hp := hs.probes n k p hst
  refine ⟨hs.epoch, hs.finished_le, ?_, ?_, fun _ _ _ _ => ⟨_, _, _, rfl⟩, by simp [issue, withState],
    ?_⟩
  · intro h hh
    rcases List.mem_cons.mp hh with rfl | hh
    · exact ⟨hs.epoch, Nat.le_refl _⟩
    · exact hs.held_le h hh
  · intro h hh hc hph
    rcases List.mem_cons.mp hh with rfl | hh
    · cases hph
    · obtain ⟨w, hbad⟩ := hs.closed h hh hc hph
      rw [hst] at hbad
      cases hbad
  · intro n' k' p' hst'
    simp only [issue, withState, MachineState.halfOpen.injEq] at hst'
    obtain ⟨rfl, rfl, rfl⟩ := hst'
    refine ⟨?_, hlt, hp.streak, hp.streak_lt, hp.noFailure, hp.previous⟩
    rw [outstanding_issue]
    exact congrArg (· + 1) hp.inFlight

/-- The first probe of a new half-open epoch. -/
theorem inv_issue_first {config : BreakerConfig} {s : BreakerRun} (hs : Inv config s) {u d : Nat}
    (hst : s.inner.state = .opened u d) (hb : s.changes + 1 < u64Size) :
    Inv config ({ s with
      inner := ⟨wrappingSucc s.inner.epoch, .halfOpen 1 0 d⟩
      notified := .halfOpen :: s.notified }.issue ⟨wrappingSucc s.inner.epoch, .halfOpen⟩) := by
  have hepoch : wrappingSucc s.inner.epoch = s.changes + 1 := by
    rw [hs.epoch, wrappingSucc_eq hb]
  refine ⟨hepoch, ?_, ?_, ?_, fun _ _ _ _ => ⟨_, _, _, rfl⟩, by simp [issue], ?_⟩
  · intro f hf
    exact Nat.le_succ_of_le (hs.finished_le f hf)
  · intro h hh
    rcases List.mem_cons.mp hh with rfl | hh
    · exact ⟨hepoch, Nat.le_refl _⟩
    · exact ⟨(hs.held_le h hh).1, Nat.le_succ_of_le (hs.held_le h hh).2⟩
  · intro h hh hc hph
    rcases List.mem_cons.mp hh with rfl | hh
    · cases hph
    · exact absurd hc (held_fresh hs h hh)
  · intro n k p hst'
    simp only [issue, MachineState.halfOpen.injEq] at hst'
    obtain ⟨rfl, rfl, rfl⟩ := hst'
    refine ⟨?_, config.halfOpenConcurrency_pos, (ended_fresh hs _).symm, config.closeSuccesses_pos,
      ended_fresh hs _, hs.opened u d hst⟩
    rw [outstanding_issue]
    have h0 : s.held.countP (fun h => h.issued = s.changes + 1) = 0 := by
      rw [List.countP_eq_zero]
      intro h hh
      simpa using held_fresh hs h hh
    exact congrArg (· + 1) h0.symm

/-! ## What one step can do -/

/-- The run after a transition at `now` into `Closed`. -/
def closeAt (config : BreakerConfig) (s : BreakerRun) (now : Nat) : BreakerRun :=
  { s with
    inner := ⟨wrappingSucc s.inner.epoch, .closed (.new config now)⟩
    notified := .closed :: s.notified }

/-- The run after a transition at `now` into `Open` for `duration`. -/
def openAt (s : BreakerRun) (now duration : Nat) : BreakerRun :=
  { s with
    inner := ⟨wrappingSucc s.inner.epoch, .opened (now + duration) duration⟩
    notified := .opened :: s.notified
    opened := duration :: s.opened }

theorem observe_enterOpen (s : BreakerRun) (now duration : Nat) :
    s.observe now (enterOpen s.inner.epoch now duration) = s.openAt now duration := by
  simp [observe, enterOpen, snapshot, openAt]

theorem step_tryAcquire_cases (config : BreakerConfig) (s : BreakerRun) (now : Nat) :
    (∃ w, s.inner.state = .closed w ∧ step config s (.tryAcquire now) =
      (s.withState (.closed (w.advance now))).issue ⟨s.inner.epoch, .closed⟩) ∨
    step config s (.tryAcquire now) = s ∨
    (∃ u d, s.inner.state = .opened u d ∧ u ≤ now ∧ step config s (.tryAcquire now) =
      { s with
        inner := ⟨wrappingSucc s.inner.epoch, .halfOpen 1 0 d⟩
        notified := .halfOpen :: s.notified }.issue ⟨wrappingSucc s.inner.epoch, .halfOpen⟩) ∨
    (∃ n k p, s.inner.state = .halfOpen n k p ∧ n < config.halfOpenConcurrency ∧
      step config s (.tryAcquire now) =
        (s.withState (.halfOpen (n + 1) k p)).issue ⟨s.inner.epoch, .halfOpen⟩) := by
  rcases tryAcquire_cases config now s.inner with ⟨w, hw, hr⟩ | ⟨u, d, hu, hlt, hr⟩ |
    ⟨u, d, hu, hle, hr⟩ | ⟨n, k, p, hn, hle, hr⟩ | ⟨n, k, p, hn, hlt, hr⟩
  · exact .inl ⟨w, hw, by simp only [step, hr]; rfl⟩
  · exact .inr (.inl (by simp only [step, hr]; rfl))
  · exact .inr (.inr (.inl ⟨u, d, hu, hle, by simp only [step, hr]; rfl⟩))
  · exact .inr (.inl (by simp only [step, hr]; rfl))
  · exact .inr (.inr (.inr ⟨n, k, p, hn, hlt, by simp only [step, hr]; rfl⟩))

/-- A held permit of the current epoch was issued by the state the breaker is in. -/
theorem step_finish_cases {config : BreakerConfig} {s : BreakerRun} (hs : Inv config s)
    {permit : Nat} {x : Held} (hx : s.held[permit]? = some x) (o : PermitOutcome) (now : Nat) :
    (x.issued < s.changes ∧
      step config s (.finish permit o now) = s.retire permit x o.impact) ∨
    (x.issued = s.changes ∧ ∃ w w', s.inner.state = .closed w ∧
      (o.impact = .ignore ∨ o.impact = .unattempted → w' = w.advance now) ∧
      step config s (.finish permit o now) =
        (s.withState (.closed w')).retire permit x o.impact) ∨
    (x.issued = s.changes ∧ o.impact = .failure ∧ ∃ w, s.inner.state = .closed w ∧
      step config s (.finish permit o now) =
        (s.openAt now config.initialOpenDuration).retire permit x o.impact) ∨
    (x.issued = s.changes ∧ o.impact ≠ .failure ∧ ∃ n k p k', s.inner.state = .halfOpen n k p ∧
      k' = (if o.impact = .success then k + 1 else k) ∧ k' < config.closeSuccesses ∧
      step config s (.finish permit o now) =
        (s.withState (.halfOpen (n - 1) k' p)).retire permit x o.impact) ∨
    (x.issued = s.changes ∧ o.impact = .success ∧ ∃ n k p, s.inner.state = .halfOpen n k p ∧
      k + 1 = config.closeSuccesses ∧
      step config s (.finish permit o now) = (s.closeAt config now).retire permit x o.impact) ∨
    (x.issued = s.changes ∧ o.impact = .failure ∧ ∃ n k p, s.inner.state = .halfOpen n k p ∧
      step config s (.finish permit o now) =
        (s.openAt now (min (2 * p) config.maxOpenDuration)).retire permit x o.impact) := by
  have hmem := List.mem_of_getElem? hx
  obtain ⟨htok, hle⟩ := hs.held_le x hmem
  have hstep : step config s (.finish permit o now) =
      (s.observe now (complete config now x.token o s.inner)).retire permit x o.impact := by
    simp only [step, hx]
  by_cases hcur : x.issued = s.changes
  · have hep : x.token.epoch = s.inner.epoch := by rw [htok, hcur, hs.epoch]
    rw [hstep, complete, if_neg (by simpa using hep)]
    cases hph : x.token.phase with
    | closed =>
      obtain ⟨w, hw⟩ := hs.closed x hmem hcur hph
      have hin : s.inner = ⟨s.inner.epoch, .closed w⟩ := by rw [← hw]
      rcases completeClosed_cases config s.inner.epoch now w o.impact with
        ⟨w', hr, hw'⟩ | ⟨hi, hr⟩
      · refine .inr (.inl ⟨hcur, w, w', hw, hw', ?_⟩)
        rw [hin, hr]
        rfl
      · refine .inr (.inr (.inl ⟨hcur, hi, w, hw, ?_⟩))
        rw [hin, hr]
        simp only
        rw [observe_enterOpen]
    | halfOpen =>
      obtain ⟨n, k, p, hst⟩ := hs.halfOpen x hmem hcur hph
      have hin : s.inner = ⟨s.inner.epoch, .halfOpen n k p⟩ := by rw [← hst]
      have hk := (hs.probes n k p hst).streak_lt
      rcases completeHalfOpen_cases config s.inner.epoch now n k p hk o.impact with
        ⟨hi, hlt, hr⟩ | ⟨hi, heq, hr⟩ | ⟨hi, hr⟩ | ⟨hi, hr⟩
      · refine .inr (.inr (.inr (.inl ⟨hcur, by simp [hi], n, k, p, k + 1, hst, by simp [hi], hlt, ?_⟩)))
        rw [hin, hr]
        rfl
      · refine .inr (.inr (.inr (.inr (.inl ⟨hcur, hi, n, k, p, hst, heq, ?_⟩))))
        rw [hin, hr]
        rfl
      · refine .inr (.inr (.inr (.inr (.inr ⟨hcur, hi, n, k, p, hst, ?_⟩))))
        rw [hin, hr]
        simp only
        rw [observe_enterOpen]
      · refine .inr (.inr (.inr (.inl ⟨hcur, ?_, n, k, p, k, hst, ?_, hk, ?_⟩)))
        · rcases hi with hi | hi <;> simp [hi]
        · rcases hi with hi | hi <;> simp [hi]
        · rw [hin, hr]
          rfl
  · refine .inl ⟨by omega, ?_⟩
    have hep : x.token.epoch ≠ s.inner.epoch := by rw [htok, hs.epoch]; exact hcur
    rw [hstep, complete_stale config now x.token o s.inner hep]
    rfl

theorem inv_step (config : BreakerConfig) (s : BreakerRun) (e : BreakerEvent) (hs : Inv config s)
    (hb : (step config s e).changes < u64Size) : Inv config (step config s e) := by
  cases e with
  | tryAcquire now =>
    rcases step_tryAcquire_cases config s now with ⟨w, hw, hr⟩ | hr | ⟨u, d, hu, -, hr⟩ |
      ⟨n, k, p, hn, hlt, hr⟩
    · rw [hr]
      exact inv_issue_closed hs hw _
    · rw [hr]
      exact hs
    · rw [hr] at hb ⊢
      exact inv_issue_first hs hu hb
    · rw [hr]
      exact inv_issue_halfOpen hs hn hlt
  | finish permit o now =>
    cases hx : s.held[permit]? with
    | none =>
      have hr : step config s (.finish permit o now) = s := by simp only [step, hx]
      rw [hr]
      exact hs
    | some x =>
      have hsub : ∀ h ∈ s.held.eraseIdx permit, h ∈ s.held := fun h hh => List.mem_of_mem_eraseIdx hh
      have hfin : ∀ f ∈ (⟨x.issued, o.impact⟩ : Finished) :: s.finished, f.issued ≤ s.changes := by
        intro f hf
        rcases List.mem_cons.mp hf with rfl | hf
        · exact (hs.held_le x (List.mem_of_getElem? hx)).2
        · exact hs.finished_le f hf
      rcases step_finish_cases hs hx o now with ⟨hlt, hr⟩ | ⟨-, w, w', hw, -, hr⟩ |
        ⟨-, -, w, hw, hr⟩ | ⟨hcur, hi, n, k, p, k', hst, hk, hlt, hr⟩ |
        ⟨-, -, n, k, p, hst, -, hr⟩ | ⟨-, -, n, k, p, hst, hr⟩
      · rw [hr]
        exact inv_retire_stale hs hx (by omega) _
      · rw [hr]
        exact inv_retire_closed hs hx hw w' _
      · rw [hr] at hb ⊢
        exact inv_transition hs ⟨_, rfl⟩ hb rfl hsub hfin (.inr ⟨_, _, rfl, rfl⟩)
      · rw [hr]
        exact inv_retire_halfOpen hs hx hcur hst hi hk hlt
      · rw [hr] at hb ⊢
        exact inv_transition hs ⟨_, rfl⟩ hb rfl hsub hfin (.inl ⟨_, rfl⟩)
      · rw [hr] at hb ⊢
        exact inv_transition hs ⟨_, rfl⟩ hb rfl hsub hfin (.inr ⟨_, _, rfl, rfl⟩)

/-- A step adds at most one transition, and never removes one. -/
theorem changes_step_bounds (config : BreakerConfig) (s : BreakerRun) (e : BreakerEvent) :
    s.changes ≤ (step config s e).changes ∧ (step config s e).changes ≤ s.changes + 1 := by
  have hobs : ∀ {α : Type} (now : Nat) (r : Locked α),
      s.changes ≤ (s.observe now r).changes ∧ (s.observe now r).changes ≤ s.changes + 1 := by
    intro α now r
    cases h : r.transition <;> simp [changes, observe, h]
  cases e with
  | tryAcquire now =>
    simp only [step]
    split <;> exact hobs now _
  | finish permit o now =>
    simp only [step]
    split
    · exact ⟨Nat.le_refl _, Nat.le_succ _⟩
    · exact hobs now _

/-- **Invariant of whole runs.**  It holds after any interleaving with fewer than
2⁶⁴ transitions. -/
theorem inv_run (config : BreakerConfig) (start : Nat) (es : List BreakerEvent)
    (hb : ((machine config start).run es).changes < u64Size) :
    Inv config ((machine config start).run es) := by
  refine (machine config start).invariant_of_bound (B := fun s => s.changes < u64Size) ?_
    (inv_init config start) ?_ es hb
  · intro s e h
    exact Nat.lt_of_le_of_lt (changes_step_bounds config s e).1 h
  · exact fun s e hs h => inv_step config s e hs h

/-! ## Safety -/

/-- What every step `s → s'` of a run respects. -/
structure SafeStep (config : BreakerConfig) (s : BreakerRun) (e : BreakerEvent) (s' : BreakerRun) :
    Prop where
  inFlight : ∀ n k p, s'.inner.state = .halfOpen n k p →
    n = s'.outstanding ∧ n ≤ config.halfOpenConcurrency
  saturated : ∀ now, e = .tryAcquire now →
    (tryAcquire config now s.inner).result = .error .halfOpenSaturated → 0 < s.outstanding
  stale : ∀ permit outcome now h, e = .finish permit outcome now → s.held[permit]? = some h →
    h.issued < s.changes → s'.inner = s.inner ∧ s'.notified = s.notified
  closes : ∀ n k p w, s.inner.state = .halfOpen n k p → s'.inner.state = .closed w →
    s'.ended s.changes .success = config.closeSuccesses ∧ s'.ended s.changes .failure = 0
  early : ∀ now u d, e = .tryAcquire now → s.inner.state = .opened u d → now < u →
    (tryAcquire config now s.inner).result = .error (.opened (u - now)) ∧ s' = s
  opens : ∀ u d, s'.inner.state = .opened u d → s'.changes ≠ s.changes →
    u = e.now + d ∧ s'.opened = d :: s.opened
  reopens : ∀ n k p u d, s.inner.state = .halfOpen n k p → s'.inner.state = .opened u d →
    ∃ previous, s.opened.head? = some previous ∧ d = min (2 * previous) config.maxOpenDuration
  quiet : ∀ permit outcome now, e = .finish permit outcome now →
    outcome.impact = .ignore ∨ outcome.impact = .unattempted →
    snapshot now s'.inner = snapshot now s.inner ∧
    ∀ n k p, s.inner.state = .halfOpen n k p → ∃ n', s'.inner.state = .halfOpen n' k p

@[simp] theorem snapshot_withState_advance (s : BreakerRun) (now : Nat) {w : RollingWindow}
    (hw : s.inner.state = .closed w) :
    snapshot now (s.withState (.closed (w.advance now))).inner = snapshot now s.inner := by
  simp [snapshot, withState, hw]

theorem ended_success_closeAt {config : BreakerConfig} {s : BreakerRun} (hs : Inv config s)
    {n k p : Nat} (hst : s.inner.state = .halfOpen n k p) (hk : k + 1 = config.closeSuccesses)
    (now permit : Nat) {x : Held} (hcur : x.issued = s.changes) :
    ((s.closeAt config now).retire permit x .success).ended s.changes .success =
      config.closeSuccesses ∧
    ((s.closeAt config now).retire permit x .success).ended s.changes .failure = 0 := by
  have hp := hs.probes n k p hst
  have hsame : ∀ i, (s.closeAt config now).ended s.changes i = s.ended s.changes i := fun _ => rfl
  refine ⟨?_, ?_⟩
  · rw [ended_retire, hsame, ← hp.streak, if_pos ⟨hcur, rfl⟩, hk]
  · rw [ended_retire, hsame, hp.noFailure, if_neg (by simp)]

theorem safe_tryAcquire {config : BreakerConfig} {s : BreakerRun} (hs : Inv config s) (now : Nat)
    (hs' : Inv config (step config s (.tryAcquire now))) :
    SafeStep config s (.tryAcquire now) (step config s (.tryAcquire now)) := by
  have hcases := step_tryAcquire_cases config s now
  refine ⟨fun n k p h => ⟨(hs'.probes n k p h).inFlight, (hs'.probes n k p h).inFlight_le⟩,
    ?_, by simp, ?_, ?_, ?_, ?_, by simp⟩
  · intro now' he hr
    cases he
    rcases tryAcquire_cases config now s.inner with ⟨w, -, h⟩ | ⟨u, d, -, -, h⟩ |
      ⟨u, d, -, -, h⟩ | ⟨n, k, p, hn, hle, h⟩ | ⟨n, k, p, -, -, h⟩ <;> rw [h] at hr
    · cases hr
    · cases hr
    · cases hr
    · -- saturated: the permits in flight are the outstanding ones
      rw [← (hs.probes n k p hn).inFlight]
      exact Nat.lt_of_lt_of_le config.halfOpenConcurrency_pos hle
    · cases hr
  · intro n k p w hn hw
    rcases hcases with ⟨w', hw', -⟩ | hr | ⟨u, d, hu, -, -⟩ | ⟨n', k', p', -, -, hr⟩
    · rw [hn] at hw'
      cases hw'
    · rw [hr, hn] at hw
      cases hw
    · rw [hn] at hu
      cases hu
    · rw [hr] at hw
      cases hw
  · intro now' u d he hu hlt
    cases he
    rcases tryAcquire_cases config now s.inner with ⟨w, hw, -⟩ | ⟨u', d', hu', -, h⟩ |
      ⟨u', d', hu', hle, -⟩ | ⟨n, k, p, hn, -⟩ | ⟨n, k, p, hn, -⟩
    · rw [hu] at hw
      cases hw
    · rw [hu] at hu'
      cases hu'
      simp only [step, h]
      exact ⟨trivial, rfl⟩
    · rw [hu] at hu'
      cases hu'
      omega
    · rw [hu] at hn
      cases hn
    · rw [hu] at hn
      cases hn
  · intro u d ho hne
    rcases hcases with ⟨w', -, hr⟩ | hr | ⟨u', d', -, -, hr⟩ | ⟨n', k', p', -, -, hr⟩
    · rw [hr] at ho
      cases ho
    · rw [hr] at hne
      exact absurd rfl hne
    · rw [hr] at ho
      cases ho
    · rw [hr] at ho
      cases ho
  · intro n k p u d hn hu
    rcases hcases with ⟨w', -, hr⟩ | hr | ⟨u', d', -, -, hr⟩ | ⟨n', k', p', -, -, hr⟩
    · rw [hr] at hu
      cases hu
    · rw [hr, hn] at hu
      cases hu
    · rw [hr] at hu
      cases hu
    · rw [hr] at hu
      cases hu

theorem safe_finish {config : BreakerConfig} {s : BreakerRun} (hs : Inv config s) (permit : Nat)
    (o : PermitOutcome) (now : Nat) (hs' : Inv config (step config s (.finish permit o now))) :
    SafeStep config s (.finish permit o now) (step config s (.finish permit o now)) := by
  have hin := fun n k p h => And.intro (hs'.probes n k p h).inFlight (hs'.probes n k p h).inFlight_le
  cases hx : s.held[permit]? with
  | none =>
    have hr : step config s (.finish permit o now) = s := by simp only [step, hx]
    rw [hr] at hin ⊢
    exact {
      inFlight := hin
      saturated := by simp
      stale := by rintro _ _ _ h ⟨⟩ hh; simp [hx] at hh
      closes := by intro n k p w hn; simp [hn]
      early := by simp
      opens := fun _ _ _ h => absurd rfl h
      reopens := by intro n k p u d hn; simp [hn]
      quiet := by rintro _ _ _ ⟨⟩ -; exact ⟨rfl, fun n k p hn => ⟨n, hn⟩⟩ }
  | some x =>
    have hsame : ∀ {permit' outcome' now' h}, BreakerEvent.finish permit o now =
        .finish permit' outcome' now' → s.held[permit']? = some h → h = x := by
      rintro _ _ _ h ⟨⟩ hh
      rw [hx] at hh
      exact (Option.some.inj hh).symm
    rcases step_finish_cases hs hx o now with ⟨hlt, hr⟩ | ⟨hcur, w, w', hw, hquiet, hr⟩ |
      ⟨hcur, hi, w, hw, hr⟩ | ⟨hcur, hi, n, k, p, k', hst, hk, hlt, hr⟩ |
      ⟨hcur, hi, n, k, p, hst, hk, hr⟩ | ⟨hcur, hi, n, k, p, hst, hr⟩ <;> rw [hr] at hin ⊢
    · -- a permit of an earlier epoch
      exact {
        inFlight := hin
        saturated := by simp
        stale := fun _ _ _ _ _ _ _ => ⟨rfl, rfl⟩
        closes := by intro n k p w hn; simp [retire, hn]
        early := by simp
        opens := fun _ _ _ h => absurd rfl h
        reopens := by intro n k p u d hn; simp [retire, hn]
        quiet := by rintro _ _ _ ⟨⟩ -; exact ⟨rfl, fun n k p hn => ⟨n, hn⟩⟩ }
    · -- recorded into the window
      exact {
        inFlight := hin
        saturated := by simp
        stale := by rintro _ _ _ h he hh hlt; rw [hsame he hh] at hlt; omega
        closes := by simp [hw]
        early := by simp
        opens := fun _ _ _ h => absurd rfl h
        reopens := by simp [hw]
        quiet := by
          rintro _ _ _ ⟨⟩ hi
          rw [hquiet hi]
          exact ⟨snapshot_withState_advance s now hw, by simp [hw]⟩ }
    · -- the closed breaker opens
      exact {
        inFlight := hin
        saturated := by simp
        stale := by rintro _ _ _ h he hh hlt; rw [hsame he hh] at hlt; omega
        closes := by simp [hw]
        early := by simp
        opens := by rintro u d ⟨⟩ -; exact ⟨rfl, rfl⟩
        reopens := by simp [hw]
        quiet := by rintro _ _ _ ⟨⟩ hi'; simp [hi] at hi' }
    · -- a probe leaves
      exact {
        inFlight := hin
        saturated := by simp
        stale := by rintro _ _ _ h he hh hlt; rw [hsame he hh] at hlt; omega
        closes := by simp [retire, withState]
        early := by simp
        opens := fun _ _ _ h => absurd rfl h
        reopens := by simp [retire, withState]
        quiet := by
          rintro _ _ _ ⟨⟩ hi'
          have hk' : k' = k := by rcases hi' with h | h <;> simpa [h] using hk
          refine ⟨by simp [snapshot, retire, withState, hst], ?_⟩
          intro n' k'' p' hn
          rw [hst] at hn
          cases hn
          exact ⟨n - 1, by rw [← hk']; rfl⟩ }
    · -- the last success closes
      exact {
        inFlight := hin
        saturated := by simp
        stale := by rintro _ _ _ h he hh hlt; rw [hsame he hh] at hlt; omega
        closes := by
          intro _ _ _ _ _ _
          rw [hi]
          exact ended_success_closeAt hs hst hk now permit hcur
        early := by simp
        opens := by simp [retire, closeAt]
        reopens := by simp [retire, closeAt]
        quiet := by rintro _ _ _ ⟨⟩ hi'; simp [hi] at hi' }
    · -- a failed probe reopens
      exact {
        inFlight := hin
        saturated := by simp
        stale := by rintro _ _ _ h he hh hlt; rw [hsame he hh] at hlt; omega
        closes := by simp [retire, openAt]
        early := by simp
        opens := by rintro u d ⟨⟩ -; exact ⟨rfl, rfl⟩
        reopens := by
          intro n' k' p' u d _ hu
          cases hu
          exact ⟨p, (hs.probes n k p hst).previous, rfl⟩
        quiet := by rintro _ _ _ ⟨⟩ hi'; simp [hi] at hi' }

/-- **Breaker safety.**  Every step of every run with fewer than 2⁶⁴ transitions is safe. -/
theorem safeStep_run (config : BreakerConfig) (start : Nat) (es : List BreakerEvent)
    (e : BreakerEvent) (hb : ((machine config start).run (es ++ [e])).changes < u64Size) :
    SafeStep config ((machine config start).run es) e ((machine config start).run (es ++ [e])) := by
  have hs' := inv_run config start _ hb
  rw [Lib.Machine.run_concat] at hb hs' ⊢
  have hs := inv_run config start es (Nat.lt_of_le_of_lt (changes_step_bounds config _ e).1 hb)
  cases e with
  | tryAcquire now => exact safe_tryAcquire hs now hs'
  | finish permit o now => exact safe_finish hs permit o now hs'

theorem changes_run_le (config : BreakerConfig) (start : Nat) (es : List BreakerEvent) :
    ((machine config start).run es).changes ≤ es.length := by
  induction es using List.reverseRecOn with
  | nil => exact Nat.le_refl 0
  | append_singleton es e ih =>
    have := (changes_step_bounds config ((machine config start).run es) e).2
    rw [Lib.Machine.run_concat, List.length_append]
    show (step config _ e).changes ≤ es.length + 1
    omega

def probingConfig : BreakerConfig :=
  .new 1000 4 1 0 10 40 2 2 (by decide) (by decide) (by decide) (by decide) (by decide)
    (by decide) (by decide) (by decide)

/-- A breaker opens, is probed twice, and reopens while the second probe is still out. -/
def probingEvents : List BreakerEvent :=
  [.tryAcquire 0, .finish 0 (.failure .transport) 1, .tryAcquire 11, .tryAcquire 12]

theorem safeStep_run_reopen :
    SafeStep probingConfig ((machine probingConfig 0).run probingEvents)
      (.finish 0 (.failure .transport) 13)
      ((machine probingConfig 0).run (probingEvents ++ [.finish 0 (.failure .transport) 13])) := by
  refine safeStep_run probingConfig 0 probingEvents (.finish 0 (.failure .transport) 13) ?_
  have h := changes_run_le probingConfig 0 (probingEvents ++ [.finish 0 (.failure .transport) 13])
  exact Nat.lt_of_le_of_lt h (by decide)

end BreakerRun

end Fusen.Resilience
