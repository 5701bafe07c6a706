import Fusen.Resilience.BreakerRuns
import Fusen.Resilience.RollingWindow

/-!
# When a closed breaker opens

`Watched` is a run of a breaker with the outcomes that its permits recorded since the last
transition.  `opens_iff`: in every run with a clock that does not go back, the window of
the closed breaker counts the recent ones, and the breaker opens at the recorded failure
with which they reach the threshold.
-/

namespace Fusen.Resilience

open RollingWindow

/-- The outcome of a permit that counts in the present closed state. -/
def recorded (s : BreakerRun) : BreakerEvent → Option Recorded
  | .tryAcquire _ => none
  | .finish permit outcome now =>
    match s.held[permit]?, s.inner.state with
    | some h, .closed _ =>
      if h.token = ⟨s.inner.epoch, .closed⟩ then
        match outcome.impact with
        | .success => some ⟨now, false⟩
        | .failure => some ⟨now, true⟩
        | .ignore | .unattempted => none
      else none
    | _, _ => none

/-- A run, and what has been recorded since the last transition, newest first. -/
structure Watched where
  run : BreakerRun
  log : List Recorded

namespace Watched

def step (config : BreakerConfig) (s : Watched) (e : BreakerEvent) : Watched where
  run := s.run.step config e
  log :=
    if (s.run.step config e).changes = s.run.changes then (recorded s.run e).toList ++ s.log else []

def machine (config : BreakerConfig) (start : Nat) : Lib.Machine Watched BreakerEvent where
  init := ⟨(BreakerRun.machine config start).init, []⟩
  step := step config

end Watched

/-! ## One step -/

/-- What an event does to the window of a closed breaker. -/
inductive ClosedStep (config : BreakerConfig) (s : BreakerRun) (w : RollingWindow)
    (e : BreakerEvent) : BreakerRun → Prop
  | same {s' : BreakerRun} (hstate : s'.inner.state = .closed w) (hnotified : s'.notified = s.notified)
      (hrecorded : recorded s e = none) : ClosedStep config s w e s'
  | advance {s' : BreakerRun} (hstate : s'.inner.state = .closed (w.advance e.now))
      (hnotified : s'.notified = s.notified) (hrecorded : recorded s e = none) :
      ClosedStep config s w e s'
  | record {s' : BreakerRun} (failed : Bool)
      (hstate : s'.inner.state = .closed ((w.advance e.now).record failed))
      (hnotified : s'.notified = s.notified) (hrecorded : recorded s e = some ⟨e.now, failed⟩)
      (hbelow : failed = true →
        thresholdExceeded config ((w.advance e.now).record true).counts = false) :
      ClosedStep config s w e s'
  | opened {s' : BreakerRun} (hstate : ∀ w', s'.inner.state ≠ .closed w')
      (hnotified : s'.notified = .opened :: s.notified)
      (hrecorded : recorded s e = some ⟨e.now, true⟩)
      (hreached : thresholdExceeded config ((w.advance e.now).record true).counts = true) :
      ClosedStep config s w e s'

section

variable {config : BreakerConfig} {s : BreakerRun} {w : RollingWindow}

variable (config) in
theorem step_finish {permit : Nat} {x : Held} (hx : s.held[permit]? = some x)
    (outcome : PermitOutcome) (now : Nat) :
    (s.step config (.finish permit outcome now)).inner =
        (complete config now x.token outcome s.inner).inner ∧
      (s.step config (.finish permit outcome now)).notified =
        (complete config now x.token outcome s.inner).transition.toList ++ s.notified := by
  simp only [BreakerRun.step, hx]
  exact ⟨rfl, rfl⟩

/-- A permit of another epoch or phase changes nothing in a closed breaker. -/
theorem complete_of_token_ne (hw : s.inner.state = .closed w) {token : PermitToken}
    (htoken : token ≠ ⟨s.inner.epoch, .closed⟩) (outcome : PermitOutcome) (now : Nat) :
    complete config now token outcome s.inner = ⟨s.inner, (), none⟩ := by
  unfold complete
  by_cases hepoch : token.epoch = s.inner.epoch
  · rw [if_neg (not_not.mpr hepoch)]
    obtain ⟨epoch, phase⟩ := token
    cases phase with
    | closed => exact absurd (by rw [← hepoch]) htoken
    | halfOpen =>
      unfold completeHalfOpen
      rw [hw]
  · rw [if_pos hepoch]

variable (config) in
theorem closedStep (hw : s.inner.state = .closed w) (e : BreakerEvent) :
    ClosedStep config s w e (s.step config e) := by
  cases e with
  | tryAcquire now =>
    refine .advance ?_ ?_ rfl <;> unfold BreakerRun.step tryAcquire <;> rw [hw] <;> rfl
  | finish permit outcome now =>
    cases hx : s.held[permit]? with
    | none =>
      have hrecorded : recorded s (.finish permit outcome now) = none := by
        simp only [recorded, hx]
      have hstep : s.step config (.finish permit outcome now) = s := by
        simp only [BreakerRun.step, hx]
      rw [hstep]
      exact .same hw rfl hrecorded
    | some x =>
      obtain ⟨hinner, hnotified⟩ := step_finish config hx outcome now
      by_cases htoken : x.token = ⟨s.inner.epoch, .closed⟩
      · have hrecorded : recorded s (.finish permit outcome now) =
            match outcome.impact with
            | .success => some ⟨now, false⟩
            | .failure => some ⟨now, true⟩
            | .ignore | .unattempted => none := by
          simp only [recorded, hx, hw, if_pos htoken]
        have hcomplete : complete config now x.token outcome s.inner =
            completeClosed config s.inner now outcome.impact := by
          unfold complete
          rw [htoken, if_neg (by simp)]
        rw [hcomplete] at hinner hnotified
        unfold completeClosed at hinner hnotified
        simp only [hw] at hinner hnotified
        cases himpact : outcome.impact with
        | success =>
          simp only [himpact] at hinner hnotified hrecorded
          exact .record false (by rw [hinner]; rfl) hnotified hrecorded
            fun h => absurd h Bool.false_ne_true
        | failure =>
          simp only [himpact] at hinner hnotified hrecorded
          by_cases hreached : thresholdExceeded config ((w.advance now).record true).counts = true
          · have hif : thresholdExceeded config (w.advance now).recordFailure.counts = true := hreached
            rw [if_pos hif] at hinner hnotified
            refine .opened ?_ hnotified hrecorded hreached
            intro w' hw'
            rw [hinner] at hw'
            cases hw'
          · have hif : ¬ thresholdExceeded config (w.advance now).recordFailure.counts = true :=
              hreached
            rw [if_neg hif] at hinner hnotified
            refine .record true ?_ hnotified hrecorded fun _ => ?_
            · rw [hinner]
              rfl
            · rwa [Bool.not_eq_true] at hreached
        | ignore =>
          simp only [himpact] at hinner hnotified hrecorded
          exact .advance (by rw [hinner]; rfl) hnotified hrecorded
        | unattempted =>
          simp only [himpact] at hinner hnotified hrecorded
          exact .advance (by rw [hinner]; rfl) hnotified hrecorded
      · have hrecorded : recorded s (.finish permit outcome now) = none := by
          simp only [recorded, hx, hw, if_neg htoken]
        rw [complete_of_token_ne hw htoken] at hinner hnotified
        exact .same (by rw [hinner]; exact hw) hnotified hrecorded

/-- A breaker that is not closed becomes closed with a new window. -/
theorem step_of_not_closed (hs : ∀ w, s.inner.state ≠ .closed w) (e : BreakerEvent)
    (hw : (s.step config e).inner.state = .closed w) :
    w = .new config e.now ∧ (s.step config e).notified = .closed :: s.notified := by
  cases e with
  | tryAcquire now =>
    exfalso
    rcases BreakerRun.step_tryAcquire_cases config s now with ⟨w', hw', -⟩ | hr |
      ⟨u, d, -, -, hr⟩ | ⟨n, k, p, -, -, hr⟩
    · exact hs w' hw'
    · rw [hr] at hw
      exact hs w hw
    · rw [hr] at hw
      cases hw
    · rw [hr] at hw
      cases hw
  | finish permit outcome now =>
    cases hx : s.held[permit]? with
    | none =>
      have hstep : s.step config (.finish permit outcome now) = s := by
        simp only [BreakerRun.step, hx]
      rw [hstep] at hw
      exact absurd hw (hs w)
    | some x =>
      obtain ⟨hinner, hnotified⟩ := step_finish config hx outcome now
      rw [hinner] at hw
      rw [hnotified]
      revert hw
      unfold complete
      split
      · exact fun hw => absurd hw (hs w)
      · split
        · unfold completeClosed
          split
          · rename_i hclosed
            exact absurd hclosed (hs _)
          all_goals exact fun hw => absurd hw (hs w)
        · unfold completeHalfOpen
          split
          · split
            · dsimp only
              split
              · intro hw
                cases hw
                exact ⟨rfl, rfl⟩
              · intro hw
                cases hw
            all_goals
              intro hw
              cases hw
          · exact fun hw => absurd hw (hs w)
          · exact fun hw => absurd hw (hs w)

end

/-! ## Whole runs -/

def BreakerConfig.bucketWidth (config : BreakerConfig) : Nat :=
  max (config.window / config.buckets) 1

/-- The window of a closed breaker has counted the log, up to some past time. -/
def Watched.Tracked (config : BreakerConfig) (last : Nat) (s : Watched) : Prop :=
  ∀ w, s.run.inner.state = .closed w →
    w.buckets.length = config.buckets ∧ w.bucketWidth = config.bucketWidth ∧
      ∃ time ≤ last, Tracks w s.log time

theorem Watched.Tracked.step {config : BreakerConfig} {last : Nat} {s : Watched}
    (h : s.Tracked config last) {e : BreakerEvent} (he : last ≤ e.now) :
    (s.step config e).Tracked config e.now := by
  intro w' hw'
  have hstep : (s.step config e).run = s.run.step config e := rfl
  have hlog : (s.step config e).log = if (s.run.step config e).changes = s.run.changes then
    (recorded s.run e).toList ++ s.log else [] := rfl
  have hsame (heq : (s.run.step config e).notified = s.run.notified) :
      (s.step config e).log = (recorded s.run e).toList ++ s.log := by
    rw [hlog, BreakerRun.changes, heq, BreakerRun.changes, if_pos rfl]
  by_cases hclosed : ∃ w, s.run.inner.state = .closed w
  · obtain ⟨w, hw⟩ := hclosed
    obtain ⟨hlength, hwidth, time, htime, htracks⟩ := h w hw
    have hadvance : Tracks (w.advance e.now) s.log e.now := htracks.advance (by omega)
    rw [hstep] at hw'
    cases closedStep config hw e with
    | same hstate hnotified hrecorded =>
      rw [hstate] at hw'
      cases hw'
      rw [hsame hnotified, hrecorded]
      exact ⟨hlength, hwidth, time, by omega, htracks⟩
    | advance hstate hnotified hrecorded =>
      rw [hstate] at hw'
      cases hw'
      rw [hsame hnotified, hrecorded, length_advance, bucketWidth_advance]
      exact ⟨hlength, hwidth, e.now, Nat.le_refl _, hadvance⟩
    | record failed hstate hnotified hrecorded =>
      rw [hstate] at hw'
      cases hw'
      rw [hsame hnotified, hrecorded]
      refine ⟨?_, ?_, e.now, Nat.le_refl _, hadvance.record failed⟩
      · rw [length_record, length_advance]
        exact hlength
      · rw [bucketWidth_record, bucketWidth_advance]
        exact hwidth
    | opened hstate => exact absurd hw' (hstate w')
  · have hnot : ∀ w, s.run.inner.state ≠ .closed w := fun w hw => hclosed ⟨w, hw⟩
    obtain ⟨rfl, hnotified⟩ := step_of_not_closed hnot e hw'
    have hchanges : (s.run.step config e).changes ≠ s.run.changes := by
      unfold BreakerRun.changes
      rw [hnotified, List.length_cons]
      omega
    rw [hlog, if_neg hchanges]
    exact ⟨List.length_replicate, rfl, e.now, Nat.le_refl _, tracks_new config e.now⟩

theorem Watched.Tracked.mono {config : BreakerConfig} {last last' : Nat} {s : Watched}
    (h : s.Tracked config last) (hle : last ≤ last') : s.Tracked config last' := by
  intro w hw
  obtain ⟨hlength, hwidth, time, htime, htracks⟩ := h w hw
  exact ⟨hlength, hwidth, time, Nat.le_trans htime hle, htracks⟩

/-- The clock readings of a run. -/
def readings (start : Nat) (es : List BreakerEvent) : List Nat :=
  start :: es.map BreakerEvent.now

theorem Watched.tracked_run (config : BreakerConfig) {start : Nat} {es : List BreakerEvent}
    (horder : (readings start es).Pairwise (· ≤ ·)) {last : Nat}
    (hlast : ∀ t ∈ readings start es, t ≤ last) :
    ((machine config start).run es).Tracked config last := by
  induction es using List.reverseRecOn generalizing last with
  | nil =>
    rintro w ⟨⟩
    exact ⟨List.length_replicate, rfl, start, hlast start List.mem_cons_self,
      tracks_new config start⟩
  | append_singleton es e ih =>
    have hsplit : readings start (es ++ [e]) = readings start es ++ [e.now] := by
      simp [readings]
    rw [hsplit] at horder hlast
    obtain ⟨hes, -, hbefore⟩ := List.pairwise_append.mp horder
    rw [Lib.Machine.run_concat]
    have htracked := ih hes fun t ht => hbefore t ht e.now List.mem_cons_self
    exact (htracked.step (Nat.le_refl _)).mono (hlast _ (by simp))

/-! ## The threshold -/

/-- The breaker opens with this event. -/
def Opens (config : BreakerConfig) (s : BreakerRun) (e : BreakerEvent) : Prop :=
  (s.step config e).notified = .opened :: s.notified

theorem thresholdExceeded_iff {config : BreakerConfig} {c : WindowCounts} :
    thresholdExceeded config c = true ↔
      config.minimumSamples ≤ c.samples ∧ config.failureRatio ≤ f64Div c.failures c.samples := by
  unfold thresholdExceeded
  rw [Bool.and_eq_true, decide_eq_true_eq, decide_eq_true_eq]

theorem opens_iff_of_closed {config : BreakerConfig} {s : BreakerRun} {w : RollingWindow}
    (hw : s.inner.state = .closed w) (e : BreakerEvent) :
    Opens config s e ↔ recorded s e = some ⟨e.now, true⟩ ∧
      thresholdExceeded config ((w.advance e.now).record true).counts = true := by
  have hne : s.notified ≠ .opened :: s.notified := fun h => by
    have := congrArg List.length h
    rw [List.length_cons] at this
    omega
  unfold Opens
  cases closedStep config hw e with
  | same _ hnotified hrecorded =>
    rw [hnotified, hrecorded]
    exact iff_of_false hne nofun
  | advance _ hnotified hrecorded =>
    rw [hnotified, hrecorded]
    exact iff_of_false hne nofun
  | record failed _ hnotified hrecorded hbelow =>
    rw [hnotified, hrecorded]
    refine iff_of_false hne fun h => ?_
    rw [hbelow (by simpa using h.1)] at h
    cases h.2
  | opened _ hnotified hrecorded hreached =>
    exact iff_of_true hnotified ⟨hrecorded, hreached⟩

/-- **The window of a closed breaker counts the recent outcomes**, at every later time, and
**the breaker opens exactly at the recorded failure with which they reach the threshold**,
the quotient being the rounded one of the division. -/
theorem opens_when_reached (config : BreakerConfig) {start : Nat} {es : List BreakerEvent}
    (horder : (readings start es).Pairwise (· ≤ ·)) {w : RollingWindow}
    (hw : ((Watched.machine config start).run es).run.inner.state = .closed w) :
    let s := (Watched.machine config start).run es
    (∀ now, (∀ t ∈ readings start es, t ≤ now) →
      CountsRecent config.buckets config.bucketWidth now s.log (w.advance now).counts) ∧
    ∀ e : BreakerEvent, (∀ t ∈ readings start es, t ≤ e.now) →
      let c := ((w.advance e.now).record true).counts
      CountsRecent config.buckets config.bucketWidth e.now (⟨e.now, true⟩ :: s.log) c ∧
        (Opens config s.run e ↔ recorded s.run e = some ⟨e.now, true⟩ ∧
          config.minimumSamples ≤ c.samples ∧
            config.failureRatio ≤ f64Div c.failures c.samples) := by
  intro s
  have htracks {now : Nat} (hnow : ∀ t ∈ readings start es, t ≤ now) :
      Tracks (w.advance now) s.log now ∧ (w.advance now).buckets.length = config.buckets ∧
        (w.advance now).bucketWidth = config.bucketWidth := by
    obtain ⟨hlength, hwidth, time, htime, htracks⟩ := Watched.tracked_run config horder hnow w hw
    rw [length_advance, bucketWidth_advance]
    exact ⟨htracks.advance htime, hlength, hwidth⟩
  constructor
  · intro now hnow
    obtain ⟨htracks, hlength, hwidth⟩ := htracks hnow
    rw [← hlength, ← hwidth]
    exact htracks.counts
  · intro e he c
    obtain ⟨htracks, hlength, hwidth⟩ := htracks he
    refine ⟨?_, ?_⟩
    · have hcounts := (htracks.record true).counts
      rw [length_record, bucketWidth_record, hlength, hwidth] at hcounts
      exact hcounts
    · rw [opens_iff_of_closed hw, thresholdExceeded_iff]

/-! ## A fifth -/

/-- The double that is written `0.2`, which is more than a fifth. -/
def doubleFifth : ℚ := 3602879701896397 / 18014398509481984

theorem f64Div_one_five : f64Div 1 5 = doubleFifth := by
  have hlog : Int.log 2 (((1 : Nat) : ℚ) / (5 : Nat)) = -3 := by
    refine le_antisymm (Int.lt_add_one_iff.mp ?_) ?_
    · rw [← Int.lt_zpow_iff_log_lt (by decide) (by norm_num)]
      norm_num
    · rw [← Int.zpow_le_iff_le_log (by decide) (by norm_num)]
      norm_num
  have hfloor : ⌊((1 : Nat) : ℚ) / (5 : Nat) / 2 ^ (-55 : ℤ)⌋ = 7205759403792793 := by
    rw [Int.floor_eq_iff]
    norm_num
  have hround : roundHalfEven (((1 : Nat) : ℚ) / (5 : Nat) / 2 ^ (-55 : ℤ)) = 7205759403792794 := by
    unfold roundHalfEven
    rw [hfloor, if_neg (by norm_num), if_pos (by norm_num)]
    norm_num
  unfold f64Div
  rw [if_neg (by decide)]
  simp only [hlog]
  rw [show (-3 - 52 : ℤ) = -55 from rfl, hround]
  norm_num [doubleFifth]

/-- Five samples are needed, and a failure ratio of `0.2`. -/
def fifthConfig : BreakerConfig :=
  { BreakerRun.probingConfig with
    minimumSamples := 5
    failureRatio := doubleFifth
    halfOpenConcurrency := 1
    closeSuccesses := 1
    minimumSamples_pos := by decide
    failureRatio_mem := by unfold doubleFifth; norm_num
    halfOpenConcurrency_pos := Nat.one_pos
    halfOpenConcurrency_le := by decide
    closeSuccesses_pos := Nat.one_pos
    closeSuccesses_le := by decide }

def fourSuccesses : List BreakerEvent :=
  List.replicate 5 (.tryAcquire 0) ++ List.replicate 4 (.finish 0 .success 1)

/-- After four successes a failure opens the breaker, which has failed in a fifth of the
cases and not in as many as the threshold. -/
theorem opens_below_threshold :
    ∃ w, ((Watched.machine fifthConfig 0).run fourSuccesses).run.inner.state = .closed w ∧
      let s := (Watched.machine fifthConfig 0).run fourSuccesses
      let e : BreakerEvent := .finish 0 (.failure .transport) 2
      let c := ((w.advance e.now).record true).counts
      Opens fifthConfig s.run e ∧
        ¬ (recorded s.run e = some ⟨e.now, true⟩ ∧ fifthConfig.minimumSamples ≤ c.samples ∧
          fifthConfig.failureRatio ≤ (c.failures : ℚ) / c.samples) := by
  refine ⟨_, rfl, ?_⟩
  intro s e c
  have hc : c = ⟨4, 1⟩ := by decide +kernel
  constructor
  · refine (opens_iff_of_closed rfl e).mpr ⟨by decide +kernel, (thresholdExceeded_iff).mpr ?_⟩
    show fifthConfig.minimumSamples ≤ c.samples ∧ fifthConfig.failureRatio ≤ f64Div c.failures c.samples
    rw [hc]
    exact ⟨by decide, f64Div_one_five.ge⟩
  · rintro ⟨-, -, hratio⟩
    rw [hc] at hratio
    have hlt : ((1 : Nat) : ℚ) / (5 : Nat) < doubleFifth := by
      unfold doubleFifth
      norm_num
    exact absurd hratio (not_le.mpr hlt)

theorem opens_when_reached_fifth :
    let s := (Watched.machine fifthConfig 0).run fourSuccesses
    ∃ w, s.run.inner.state = .closed w ∧
      CountsRecent 4 250 1 s.log (w.advance 1).counts ∧
        Opens fifthConfig s.run (.finish 0 (.failure .transport) 2) := by
  refine ⟨_, rfl, ?_⟩
  obtain ⟨hcounts, hopens⟩ :=
    @opens_when_reached fifthConfig 0 fourSuccesses (by decide) _ rfl
  refine ⟨hcounts 1 (by decide), ?_⟩
  refine (hopens (.finish 0 (.failure .transport) 2) (by decide)).2.mpr ⟨by decide +kernel, ?_⟩
  refine ⟨by decide +kernel, ?_⟩
  exact f64Div_one_five.ge

end Fusen.Resilience
