import Mathlib.Algebra.Order.Field.Basic
import Mathlib.Tactic.Linarith
import Mathlib.Tactic.Ring

/-!
# Token buckets

The ideal bucket: tokens flow in continuously up to a capacity and are taken one at a
time.  `refill_refill` says that looking at the bucket in between changes nothing, and
`countP_grants_le` bounds what is granted in an interval of time.
-/

namespace Lib

structure TokenBucket (K : Type*) where
  capacity : K
  rate : K

namespace TokenBucket

/-- The tokens at an instant. -/
structure Level (K : Type*) where
  tokens : K
  at_ : K

variable {K : Type*} [Field K] [LinearOrder K]

section

variable (b : TokenBucket K)

def full (start : K) : Level K := ⟨b.capacity, start⟩

def refill (s : Level K) (now : K) : Level K :=
  ⟨min b.capacity (s.tokens + b.rate * (now - s.at_)), now⟩

/-- Whether a token was taken. -/
def acquire (s : Level K) (now : K) : Bool × Level K :=
  let s := b.refill s now
  if 1 ≤ s.tokens then (true, { s with tokens := s.tokens - 1 }) else (false, s)

/-- Which of the attempts at these instants are granted. -/
def grants : Level K → List K → List (K × Bool)
  | _, [] => []
  | s, t :: ts => (t, (b.acquire s t).1) :: grants (b.acquire s t).2 ts

/-- The tokens taken in the interval from `t₀` to `t₁`. -/
def taken (t₀ t₁ : K) (gs : List (K × Bool)) : Nat :=
  gs.countP fun g => t₀ ≤ g.1 ∧ g.1 ≤ t₁ ∧ g.2

end

variable {b : TokenBucket K} {s : Level K}

/-- What a refilled bucket has left, with the token that was taken. -/
theorem tokens_acquire (s : Level K) (t : K) :
    (b.acquire s t).2.tokens + (if (b.acquire s t).1 then 1 else 0) = (b.refill s t).tokens := by
  unfold acquire
  by_cases h : 1 ≤ (b.refill s t).tokens
  · simp [h]
  · simp [h]

theorem at_acquire (s : Level K) (t : K) : (b.acquire s t).2.at_ = t := by
  unfold acquire
  dsimp only
  split <;> rfl

theorem tokens_refill_le (s : Level K) (t : K) : (b.refill s t).tokens ≤ b.capacity :=
  min_le_left _ _

theorem fst_mem_of_mem_grants {ts : List K} {s : Level K} {g : K × Bool} (h : g ∈ b.grants s ts) :
    g.1 ∈ ts := by
  induction ts generalizing s with
  | nil => exact absurd h List.not_mem_nil
  | cons t ts ih =>
    rcases List.mem_cons.mp h with rfl | h
    · exact List.mem_cons_self
    · exact List.mem_cons_of_mem t (ih h)

/-- Everything later than an instant past the interval is past it. -/
theorem taken_eq_zero_of_lt {t₀ t₁ t : K} {ts : List K} (ht : t₁ < t) (hts : ∀ t' ∈ ts, t ≤ t')
    (s : Level K) : taken t₀ t₁ (b.grants s ts) = 0 := by
  unfold taken
  rw [List.countP_eq_zero]
  intro g hg
  have hlater := lt_of_lt_of_le ht (hts g.1 (fst_mem_of_mem_grants hg))
  simp only [decide_eq_true_eq]
  exact fun hin => absurd hin.2.1 (not_le.mpr hlater)

section

variable [IsStrictOrderedRing K]

/-- Refilling twice is refilling once: nothing is lost or counted twice. -/
theorem refill_refill (hrate : 0 ≤ b.rate) {t t' : K} (h : t ≤ t') :
    b.refill (b.refill s t) t' = b.refill s t' := by
  have hflow : 0 ≤ b.rate * (t' - t) := mul_nonneg hrate (sub_nonneg.mpr h)
  have hsplit : s.tokens + b.rate * (t - s.at_) + b.rate * (t' - t) =
      s.tokens + b.rate * (t' - s.at_) := by ring
  unfold refill
  congr 1
  dsimp only
  rw [← min_add_add_right, hsplit, ← min_assoc, min_eq_left (le_add_of_nonneg_right hflow)]

omit [IsStrictOrderedRing K] in
theorem refill_self (hs : s.tokens ≤ b.capacity) : b.refill s s.at_ = s := by
  unfold refill
  rw [sub_self, mul_zero, add_zero, min_eq_right hs]

theorem tokens_acquire_le (s : Level K) (t : K) : (b.acquire s t).2.tokens ≤ b.capacity := by
  have htaken := tokens_acquire (b := b) s t
  have hle := tokens_refill_le (b := b) s t
  split at htaken <;> linarith

theorem tokens_refill_nonneg (hcapacity : 0 ≤ b.capacity) (hrate : 0 ≤ b.rate)
    (hs : 0 ≤ s.tokens) {t : K} (ht : s.at_ ≤ t) : 0 ≤ (b.refill s t).tokens := by
  have hflow : 0 ≤ b.rate * (t - s.at_) := mul_nonneg hrate (by linarith)
  exact le_min hcapacity (by linarith)

theorem tokens_acquire_nonneg (hcapacity : 0 ≤ b.capacity) (hrate : 0 ≤ b.rate)
    (hs : 0 ≤ s.tokens) {t : K} (ht : s.at_ ≤ t) : 0 ≤ (b.acquire s t).2.tokens := by
  have hrefill := tokens_refill_nonneg hcapacity hrate hs ht
  unfold acquire
  by_cases h : 1 ≤ (b.refill s t).tokens
  · simp [h]
  · simpa only [h, if_false] using hrefill

/-- An attempt sees only the refilled bucket. -/
theorem acquire_refill (hrate : 0 ≤ b.rate) {t t' : K} (h : t ≤ t') :
    b.acquire (b.refill s t) t' = b.acquire s t' := by
  unfold acquire
  rw [refill_refill hrate h]

/-! ## How much is granted -/

section

variable {t₀ t₁ : K}

theorem taken_cons (g : K × Bool) (gs : List (K × Bool)) : (taken t₀ t₁ (g :: gs) : K) =
    taken t₀ t₁ gs + if t₀ ≤ g.1 ∧ g.1 ≤ t₁ ∧ g.2 then 1 else 0 := by
  unfold taken
  rw [List.countP_cons]
  split <;> simp_all

/-- From a bucket at an instant of the interval, at most its tokens and the inflow. -/
theorem taken_le_of_mem (hcapacity : 0 ≤ b.capacity) (hrate : 0 ≤ b.rate) (ts : List K) :
    ∀ s : Level K, 0 ≤ s.tokens → (∀ t ∈ ts, s.at_ ≤ t) → ts.Pairwise (· ≤ ·) → s.at_ ≤ t₁ →
      (taken t₀ t₁ (b.grants s ts) : K) ≤ s.tokens + b.rate * (t₁ - s.at_) := by
  induction ts with
  | nil =>
    intro s hs _ _ hat
    have hflow : 0 ≤ b.rate * (t₁ - s.at_) := mul_nonneg hrate (by linarith)
    simp only [grants, taken, List.countP_nil, Nat.cast_zero]
    linarith
  | cons t ts ih =>
    intro s hs hlater hsorted hat
    obtain ⟨ht, -⟩ := List.forall_mem_cons.mp hlater
    obtain ⟨hfirst, hsorted⟩ := List.pairwise_cons.mp hsorted
    rw [grants, taken_cons]
    by_cases hin : t ≤ t₁
    · have hnext := ih (b.acquire s t).2 (tokens_acquire_nonneg hcapacity hrate hs ht)
        (by rw [at_acquire]; exact hfirst) hsorted (by rw [at_acquire]; exact hin)
      rw [at_acquire] at hnext
      have htokens := tokens_acquire (b := b) s t
      have hrefill : (b.refill s t).tokens ≤ s.tokens + b.rate * (t - s.at_) := min_le_right _ _
      have hflow : b.rate * (t - s.at_) + b.rate * (t₁ - t) = b.rate * (t₁ - s.at_) := by ring
      have hone : (if t₀ ≤ t ∧ t ≤ t₁ ∧ (b.acquire s t).1 = true then (1 : K) else 0) ≤
          if (b.acquire s t).1 = true then 1 else 0 := by
        split <;> split <;> simp_all
      linarith
    · have hzero : taken t₀ t₁ (b.grants (b.acquire s t).2 ts) = 0 :=
        taken_eq_zero_of_lt (not_le.mp hin) hfirst _
      have hflow : 0 ≤ b.rate * (t₁ - s.at_) := mul_nonneg hrate (by linarith)
      rw [hzero, if_neg (fun h => hin h.2.1), Nat.cast_zero]
      linarith

/-- **At most the capacity and the inflow are granted in an interval.** -/
theorem taken_le (hcapacity : 0 ≤ b.capacity) (hrate : 0 ≤ b.rate) (h : t₀ ≤ t₁) (ts : List K) :
    ∀ s : Level K, 0 ≤ s.tokens → (∀ t ∈ ts, s.at_ ≤ t) → ts.Pairwise (· ≤ ·) →
      (taken t₀ t₁ (b.grants s ts) : K) ≤ b.capacity + b.rate * (t₁ - t₀) := by
  have hflow : 0 ≤ b.rate * (t₁ - t₀) := mul_nonneg hrate (sub_nonneg.mpr h)
  induction ts with
  | nil =>
    intro s _ _ _
    simp only [grants, taken, List.countP_nil, Nat.cast_zero]
    linarith
  | cons t ts ih =>
    intro s hs hlater hsorted
    obtain ⟨ht, -⟩ := List.forall_mem_cons.mp hlater
    obtain ⟨hfirst, hsorted⟩ := List.pairwise_cons.mp hsorted
    have hnonneg := tokens_acquire_nonneg hcapacity hrate hs ht
    have hlater' : ∀ t' ∈ ts, (b.acquire s t).2.at_ ≤ t' := by
      rw [at_acquire]
      exact hfirst
    rw [grants, taken_cons]
    rcases lt_or_ge t t₀ with hbefore | hafter
    · rw [if_neg (fun h => absurd h.1 (not_le.mpr hbefore)), add_zero]
      exact ih _ hnonneg hlater' hsorted
    · rcases le_or_gt t t₁ with hin | hpast
      · have hrest := @taken_le_of_mem K _ _ b _ t₀ t₁ hcapacity hrate ts (b.acquire s t).2 hnonneg
          hlater' hsorted (by rw [at_acquire]; exact hin)
        rw [at_acquire] at hrest
        have htokens := tokens_acquire (b := b) s t
        have hfull := tokens_refill_le (b := b) s t
        have hone : (if t₀ ≤ t ∧ t ≤ t₁ ∧ (b.acquire s t).1 = true then (1 : K) else 0) ≤
            if (b.acquire s t).1 = true then 1 else 0 := by
          split <;> split <;> simp_all
        have hless : b.rate * (t₁ - t) ≤ b.rate * (t₁ - t₀) :=
          mul_le_mul_of_nonneg_left (by linarith) hrate
        dsimp only
        linarith
      · rw [taken_eq_zero_of_lt hpast hfirst, if_neg (fun h => absurd h.2.1 (not_le.mpr hpast)),
          Nat.cast_zero]
        linarith

end

end

end TokenBucket

end Lib
