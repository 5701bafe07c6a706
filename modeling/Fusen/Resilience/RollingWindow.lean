import Mathlib.Data.List.Rotate
import Fusen.Resilience.Breaker

/-!
# What the rolling window counts

`RollingWindow.ring` has the buckets by age, newest first.  `Tracks` says that each bucket
counts the outcomes recorded in its own width of time; `Tracks.advance` and
`Tracks.record` keep it, whatever time has passed, and `Tracks.counts` reads off which
outcomes are counted.
-/

namespace Fusen.Resilience

/-- An outcome that was recorded. -/
structure Recorded where
  time : Nat
  failed : Bool
deriving DecidableEq, Repr

namespace RollingWindow

/-! ## The buckets by age -/

def ring (w : RollingWindow) : List Bucket := (w.buckets.rotate (w.current + 1)).reverse

theorem ring_eq (w : RollingWindow) : w.ring =
    w.buckets.get ⟨w.current, w.current_lt⟩ ::
      (w.buckets.drop (w.current + 1) ++ w.buckets.take w.current).reverse := by
  have hlt := w.current_lt
  unfold ring
  rw [List.rotate_eq_drop_append_take hlt, List.take_succ_eq_append_getElem hlt, ← List.append_assoc,
    List.reverse_append]
  rfl

@[simp] theorem length_ring (w : RollingWindow) : w.ring.length = w.buckets.length := by
  unfold ring
  rw [List.length_reverse, List.length_rotate]

/-- The new current bucket is empty and the oldest one is gone. -/
theorem ring_rotate (w : RollingWindow) :
    w.rotate.ring = Bucket.default :: w.ring.dropLast := by
  have hlt : (w.current + 1) % w.buckets.length < w.buckets.length :=
    Nat.mod_lt _ (Nat.lt_of_le_of_lt (Nat.zero_le _) w.current_lt)
  have hold : w.ring.dropLast = (w.buckets.drop ((w.current + 1) % w.buckets.length + 1) ++
      w.buckets.take ((w.current + 1) % w.buckets.length)).reverse := by
    unfold ring
    rw [← List.rotate_mod, List.rotate_eq_drop_append_take hlt.le, List.drop_eq_getElem_cons hlt,
      List.cons_append, List.reverse_cons, List.dropLast_concat]
  rw [ring_eq, hold]
  simp [rotate, List.take_set, List.drop_set, List.set_eq_of_length_le]

theorem ring_updateCurrent (w : RollingWindow) (f : Bucket → Bucket) :
    (w.updateCurrent f).ring = w.ring.modifyHead f := by
  rw [ring_eq, ring_eq w]
  simp [updateCurrent, List.take_set, List.drop_set, List.set_eq_of_length_le]

theorem ring_reset (w : RollingWindow) (now : Nat) :
    (w.reset now).ring = List.replicate w.buckets.length Bucket.default := by
  simp [ring, reset]

theorem ring_new (config : BreakerConfig) (now : Nat) :
    (new config now).ring = List.replicate config.buckets Bucket.default := by
  simp [ring, new]

theorem counts_eq (w : RollingWindow) :
    w.counts = ⟨(w.ring.map Bucket.successes).sum, (w.ring.map Bucket.failures).sum⟩ := by
  have hfold : ∀ (bs : List Bucket) (c : WindowCounts),
      bs.foldl (fun c b => ⟨c.successes + b.successes, c.failures + b.failures⟩) c =
        ⟨c.successes + (bs.map Bucket.successes).sum, c.failures + (bs.map Bucket.failures).sum⟩ := by
    intro bs
    induction bs with
    | nil => intro c; rfl
    | cons b bs ih =>
      intro c
      rw [List.foldl_cons, ih, List.map_cons, List.map_cons, List.sum_cons, List.sum_cons,
        Nat.add_assoc, Nat.add_assoc]
  have hperm : w.ring.Perm w.buckets := (List.reverse_perm _).trans (List.rotate_perm _ _)
  unfold counts
  rw [hfold, (hperm.map Bucket.successes).sum_eq, (hperm.map Bucket.failures).sum_eq,
    Nat.zero_add, Nat.zero_add]

/-! ## Ages -/

/-- How many widths of time the bucket of `time` lies before the one that starts at
`start`. -/
def age (start width time : Nat) : Nat := (start - time + (width - 1)) / width

theorem age_current {start width time : Nat} (hw : 0 < width) (h : start ≤ time) :
    age start width time = 0 := by
  unfold age
  rw [Nat.sub_eq_zero_of_le h, Nat.zero_add]
  exact Nat.div_eq_of_lt (by omega)

/-- One width later everything is one older. -/
theorem age_add {start width time : Nat} (hw : 0 < width) (h : time < start + width) :
    age (start + width) width time = age start width time + 1 := by
  unfold age
  by_cases hle : start ≤ time
  · rw [Nat.sub_eq_zero_of_le hle, Nat.zero_add, Nat.div_eq_of_lt (by omega : width - 1 < width)]
    rw [Nat.div_eq_iff hw]
    omega
  · rw [← Nat.add_div_right _ hw]
    congr 1
    omega

theorem le_age_iff {start width time k : Nat} (hw : 0 < width) :
    k + 1 ≤ age start width time ↔ time + k * width < start := by
  unfold age
  rw [Nat.le_div_iff_mul_le hw, Nat.succ_mul]
  omega

/-! ## Outcomes in buckets -/

/-- What a bucket counts of the outcomes that fall into it. -/
def tally (log : List Recorded) : Bucket :=
  ⟨min (log.countP fun r => r.failed = false) u32Max, min (log.countP fun r => r.failed) u32Max⟩

theorem tally_nil : tally [] = Bucket.default := rfl

def slot (start width : Nat) (log : List Recorded) (k : Nat) : List Recorded :=
  log.filter fun r => age start width r.time = k

def slots (start width n : Nat) (log : List Recorded) : List Bucket :=
  (List.range n).map fun k => tally (slot start width log k)

theorem slots_succ (start width n : Nat) (log : List Recorded) :
    slots start width (n + 1) log = tally (slot start width log 0) ::
      (List.range n).map fun k => tally (slot start width log (k + 1)) := by
  unfold slots
  rw [List.range_succ_eq_map, List.map_cons, List.map_map]
  rfl

theorem dropLast_slots (start width n : Nat) (log : List Recorded) :
    (slots start width (n + 1) log).dropLast = slots start width n log := by
  unfold slots
  rw [List.range_succ, List.map_append, List.map_cons, List.map_nil, List.dropLast_concat]

/-- One width later the outcomes are in the next older buckets. -/
theorem slots_add {start width n : Nat} (hw : 0 < width) {log : List Recorded}
    (hlog : ∀ r ∈ log, r.time < start + width) :
    slots (start + width) width (n + 1) log = Bucket.default :: slots start width n log := by
  have hnone : slot (start + width) width log 0 = [] := by
    refine List.filter_eq_nil_iff.mpr fun r hr => ?_
    rw [age_add hw (hlog r hr)]
    simp
  have hsome (k : Nat) : slot (start + width) width log (k + 1) = slot start width log k := by
    refine List.filter_congr fun r hr => ?_
    rw [age_add hw (hlog r hr)]
    exact decide_eq_decide.mpr Nat.succ_inj
  rw [slots_succ, hnone, tally_nil]
  unfold slots
  simp only [hsome]

/-- Outcomes older than the window leave its buckets empty. -/
theorem slots_of_old {start width n : Nat} (hw : 0 < width) {log : List Recorded}
    (hlog : ∀ r ∈ log, r.time + n * width < start + width) :
    slots start width n log = List.replicate n Bucket.default := by
  unfold slots
  refine List.eq_replicate_iff.mpr ⟨by simp, ?_⟩
  intro b hb
  obtain ⟨k, hk, rfl⟩ := List.mem_map.mp hb
  have hk := List.mem_range.mp hk
  have hnil : slot start width log k = [] := by
    refine List.filter_eq_nil_iff.mpr fun r hr => ?_
    have hold : k + 1 ≤ age start width r.time := by
      rw [le_age_iff hw]
      have hlt := hlog r hr
      have hle : (k + 1) * width ≤ n * width := Nat.mul_le_mul_right width hk
      rw [Nat.succ_mul] at hle
      omega
    simp only [decide_eq_true_eq]
    omega
  rw [hnil, tally_nil]

/-! ## The window and the outcomes it was given -/

/-- The buckets of the window count the outcomes of `log`, all recorded by `last`. -/
structure Tracks (w : RollingWindow) (log : List Recorded) (last : Nat) : Prop where
  ring : w.ring = slots w.currentStart w.bucketWidth w.buckets.length log
  past : ∀ r ∈ log, r.time ≤ last
  started : w.currentStart ≤ last
  current : last < w.currentStart + w.bucketWidth

theorem tracks_new (config : BreakerConfig) (now : Nat) : Tracks (new config now) [] now where
  ring := by
    have hw := (new config now).bucketWidth_pos
    rw [ring_new, slots_of_old hw fun r hr => absurd hr List.not_mem_nil]
    simp [new]
  past := nofun
  started := Nat.le_refl now
  current := Nat.lt_add_of_pos_right (new config now).bucketWidth_pos

section

variable {w : RollingWindow} {log : List Recorded} {last now : Nat}

theorem length_rotate_iterate (w : RollingWindow) (j : Nat) :
    (rotate^[j] w).buckets.length = w.buckets.length := by
  induction j with
  | zero => rfl
  | succ j ih =>
    rw [Function.iterate_succ_apply']
    show ((rotate^[j] w).buckets.set _ _).length = _
    rw [List.length_set, ih]

/-- Turning the ring keeps the buckets right, whether or not time has come that far. -/
theorem ring_rotate_iterate (hlog : ∀ r ∈ log, r.time < w.currentStart + w.bucketWidth)
    (hring : w.ring = slots w.currentStart w.bucketWidth w.buckets.length log) (j : Nat) :
    (rotate^[j] w).ring =
      slots (rotate^[j] w).currentStart w.bucketWidth w.buckets.length log := by
  induction j with
  | zero => exact hring
  | succ j ih =>
    obtain ⟨hstart, hwidth⟩ := rotate_iterate_currentStart w j
    obtain ⟨n, hn⟩ : ∃ n, w.buckets.length = n + 1 :=
      Nat.exists_eq_succ_of_ne_zero (by have := w.current_lt; omega)
    rw [Function.iterate_succ_apply', ring_rotate, ih, hn, dropLast_slots]
    show _ = slots ((rotate^[j] w).currentStart + (rotate^[j] w).bucketWidth) _ _ _
    rw [hwidth, slots_add w.bucketWidth_pos]
    intro r hr
    have := hlog r hr
    rw [hstart]
    omega

theorem length_advance (w : RollingWindow) (now : Nat) :
    (w.advance now).buckets.length = w.buckets.length := by
  unfold advance
  split
  · rfl
  · split
    · exact List.length_replicate
    · exact length_rotate_iterate w _

theorem bucketWidth_advance (w : RollingWindow) (now : Nat) :
    (w.advance now).bucketWidth = w.bucketWidth := by
  unfold advance
  split
  · rfl
  · split
    · rfl
    · exact (rotate_iterate_currentStart w _).2

/-- **Advancing keeps the buckets right**, whatever time has passed. -/
theorem Tracks.advance (h : Tracks w log last) (hnow : last ≤ now) :
    Tracks (w.advance now) log now := by
  have hw := w.bucketWidth_pos
  have hlog : ∀ r ∈ log, r.time < w.currentStart + w.bucketWidth :=
    fun r hr => Nat.lt_of_le_of_lt (h.past r hr) h.current
  have hpast : ∀ r ∈ log, r.time ≤ now := fun r hr => Nat.le_trans (h.past r hr) hnow
  have hstarted := h.started
  have hdiv := Nat.div_add_mod (now - w.currentStart) w.bucketWidth
  have hmod := Nat.mod_lt (now - w.currentStart) hw
  have hsteps : w.steps now = (now - w.currentStart) / w.bucketWidth := rfl
  rw [← hsteps, Nat.mul_comm] at hdiv
  unfold RollingWindow.advance
  split
  · rename_i hzero
    rw [hzero, Nat.zero_mul] at hdiv
    exact ⟨h.ring, hpast, by omega, by omega⟩
  · split
    · rename_i hfar
      refine ⟨?_, hpast, Nat.le_refl now, Nat.lt_add_of_pos_right hw⟩
      rw [ring_reset]
      show _ = slots now w.bucketWidth (List.replicate _ _).length log
      rw [List.length_replicate, slots_of_old hw]
      intro r hr
      have hle : w.buckets.length * w.bucketWidth ≤ w.steps now * w.bucketWidth :=
        Nat.mul_le_mul_right _ hfar
      have := hlog r hr
      omega
    · obtain ⟨hstart, hwidth⟩ := rotate_iterate_currentStart w (w.steps now)
      refine ⟨?_, hpast, ?_, ?_⟩
      · rw [ring_rotate_iterate hlog h.ring, hwidth, length_rotate_iterate]
      · omega
      · omega

/-- `record_success` and `record_failure` on a bucket. -/
def bump (failed : Bool) (b : Bucket) : Bucket :=
  if failed then { b with failures := min (b.failures + 1) u32Max }
  else { b with successes := min (b.successes + 1) u32Max }

def record (w : RollingWindow) (failed : Bool) : RollingWindow :=
  if failed then w.recordFailure else w.recordSuccess

theorem record_eq (w : RollingWindow) (failed : Bool) :
    w.record failed = w.updateCurrent (bump failed) := by
  cases failed <;> rfl

theorem length_record (w : RollingWindow) (failed : Bool) :
    (w.record failed).buckets.length = w.buckets.length := by
  rw [record_eq]
  exact List.length_set

theorem bucketWidth_record (w : RollingWindow) (failed : Bool) :
    (w.record failed).bucketWidth = w.bucketWidth := by
  rw [record_eq]
  rfl

theorem tally_cons (r : Recorded) (log : List Recorded) :
    tally (r :: log) = bump r.failed (tally log) := by
  unfold tally bump
  cases hr : r.failed <;> simp [hr] <;> omega

/-- **Recording keeps the buckets right**: the outcome is in the newest bucket. -/
theorem Tracks.record (h : Tracks w log now) (failed : Bool) :
    Tracks (w.record failed) (⟨now, failed⟩ :: log) now := by
  obtain ⟨n, hn⟩ : ∃ n, w.buckets.length = n + 1 :=
    Nat.exists_eq_succ_of_ne_zero (by have := w.current_lt; omega)
  have hage : age w.currentStart w.bucketWidth now = 0 := age_current w.bucketWidth_pos h.started
  have hzero : slot w.currentStart w.bucketWidth (⟨now, failed⟩ :: log) 0 =
      ⟨now, failed⟩ :: slot w.currentStart w.bucketWidth log 0 :=
    List.filter_cons_of_pos (by simpa using hage)
  have hsucc (k : Nat) : slot w.currentStart w.bucketWidth (⟨now, failed⟩ :: log) (k + 1) =
      slot w.currentStart w.bucketWidth log (k + 1) :=
    List.filter_cons_of_neg (by simp [hage])
  have hlength : (w.updateCurrent (bump failed)).buckets.length = n + 1 := by
    rw [← hn]
    exact List.length_set
  rw [record_eq]
  refine ⟨?_, List.forall_mem_cons.mpr ⟨Nat.le_refl now, h.past⟩, h.started, h.current⟩
  rw [ring_updateCurrent, h.ring, hlength, hn, slots_succ, slots_succ, List.modifyHead_cons]
  show _ :: _ = tally (slot w.currentStart w.bucketWidth (⟨now, failed⟩ :: log) 0) ::
    (List.range n).map fun k => tally (slot w.currentStart w.bucketWidth (⟨now, failed⟩ :: log) (k + 1))
  simp only [hzero, hsucc, tally_cons]

end

/-! ## What is counted -/

/-- `c` counts what was recorded in the last `n - 1` widths and nothing that is `n` widths
old, below the saturation of a counter. -/
def CountsRecent (n width now : Nat) (log : List Recorded) (c : WindowCounts) : Prop :=
  ∃ counted : Nat → Bool,
    (∀ r ∈ log, now ≤ r.time + (n - 1) * width → counted r.time = true) ∧
    (∀ r ∈ log, counted r.time = true → now < r.time + n * width) ∧
    let kept := log.filter fun r => counted r.time
    (kept.countP (fun r => r.failed = false) ≤ u32Max →
      c.successes = kept.countP fun r => r.failed = false) ∧
    (kept.countP (fun r => r.failed) ≤ u32Max → c.failures = kept.countP fun r => r.failed)

/-- The slots up to an age together have what is not older. -/
theorem sum_countP_slot (start width n : Nat) (log : List Recorded) (p : Recorded → Bool) :
    ((List.range n).map fun k => (slot start width log k).countP p).sum =
      (log.filter fun r => age start width r.time < n).countP p := by
  induction n with
  | zero => simp
  | succ n ih =>
    rw [List.range_succ, List.map_append, List.sum_append, ih, List.map_singleton,
      List.sum_singleton, slot, List.countP_filter, List.countP_filter, List.countP_filter]
    clear ih
    induction log with
    | nil => rfl
    | cons r log ih =>
      simp only [List.countP_cons, Bool.and_eq_true, decide_eq_true_eq] at ih ⊢
      grind

/-- Counters that together stay below the bound are not cut off. -/
theorem sum_min_eq {f : Nat → Nat} {n bound : Nat}
    (h : ((List.range n).map f).sum ≤ bound) :
    ((List.range n).map fun k => min (f k) bound).sum = ((List.range n).map f).sum := by
  induction n with
  | zero => rfl
  | succ n ih =>
    rw [List.range_succ, List.map_append, List.map_append, List.sum_append, List.sum_append] at *
    rw [List.map_singleton, List.map_singleton, List.sum_singleton, List.sum_singleton] at *
    rw [ih (by omega), Nat.min_eq_left (by omega)]

theorem Tracks.counts {w : RollingWindow} {log : List Recorded} {now : Nat}
    (h : Tracks w log now) : CountsRecent w.buckets.length w.bucketWidth now log w.counts := by
  have hw := w.bucketWidth_pos
  have hlt := w.current_lt
  have hstarted := h.started
  have hcurrent := h.current
  obtain ⟨n, hn⟩ : ∃ n, w.buckets.length = n + 1 := Nat.exists_eq_succ_of_ne_zero (by omega)
  refine ⟨fun t => age w.currentStart w.bucketWidth t < w.buckets.length, ?_, ?_, ?_, ?_⟩
  · intro r hr hrecent
    rw [decide_eq_true_eq, hn]
    by_contra hold
    have := (le_age_iff hw).mp (Nat.not_lt.mp hold)
    rw [hn, Nat.add_sub_cancel] at hrecent
    omega
  · intro r hr hkept
    rw [decide_eq_true_eq, hn] at hkept
    have := (le_age_iff hw).not.mp (Nat.not_le.mpr hkept)
    rw [hn, Nat.succ_mul]
    omega
  · intro hle
    rw [← sum_countP_slot] at hle ⊢
    rw [counts_eq, h.ring, ← sum_min_eq hle, slots]
    simp only [List.map_map]
    rfl
  · intro hle
    rw [← sum_countP_slot] at hle ⊢
    rw [counts_eq, h.ring, ← sum_min_eq hle, slots]
    simp only [List.map_map]
    rfl

end RollingWindow

end Fusen.Resilience
