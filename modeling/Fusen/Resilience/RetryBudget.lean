import Fusen.Lib.TokenBucket
import Fusen.Resilience.Retry
import Mathlib.Data.List.Induction

/-!
# The retry budget is an exact token bucket

The code counts in billionths of a token and adds `elapsed * refill_per_second` with
saturation.  `grants_eq` says that it grants what the ideal bucket over the rationals
grants, however often it is polled in between; `exact_tokenBucket` adds the bounds.
-/

namespace Fusen.Resilience

open Lib

/-- `acquire` is `try_acquire`; `poll` looks at the tokens, which refills them. -/
inductive BudgetUse
  | acquire (now : Nat)
  | poll (now : Nat)
deriving DecidableEq, Repr

def BudgetUse.now : BudgetUse → Nat
  | .acquire now | .poll now => now

def BudgetUse.acquires (uses : List BudgetUse) : List Nat :=
  uses.filterMap fun
    | .acquire now => some now
    | .poll _ => none

namespace RetryBudget

/-- `RetryBudget::new` -/
def fresh (budget : RetryBudget) (now : Nat) : BudgetState :=
  ⟨budget.capacity * TOKEN_SCALE, now⟩

def use (budget : RetryBudget) (state : BudgetState) : BudgetUse → BudgetState
  | .acquire now => (budget.tryAcquire state now).2
  | .poll now => budget.refill state now

/-- What each `try_acquire` answers, with its instant. -/
def grants (budget : RetryBudget) : BudgetState → List BudgetUse → List (Nat × Bool)
  | _, [] => []
  | state, .acquire now :: uses =>
    (now, (budget.tryAcquire state now).1) :: grants budget (budget.tryAcquire state now).2 uses
  | state, .poll now :: uses => grants budget (budget.refill state now) uses

/-- The tokens granted from `t₀` to `t₁`. -/
def taken (t₀ t₁ : Nat) (gs : List (Nat × Bool)) : Nat :=
  gs.countP fun g => t₀ ≤ g.1 ∧ g.1 ≤ t₁ ∧ g.2

/-! ## The ideal bucket -/

def seconds (nanos : Nat) : ℚ := nanos / (10 : ℚ) ^ 9

def ideal (budget : RetryBudget) : TokenBucket ℚ := ⟨budget.capacity, budget.refillPerSecond⟩

/-- What a state of the code says about tokens. -/
def level (state : BudgetState) : TokenBucket.Level ℚ :=
  ⟨state.scaledTokens / TOKEN_SCALE, seconds state.lastRefill⟩

theorem seconds_le {t t' : Nat} : seconds t ≤ seconds t' ↔ t ≤ t' := by
  unfold seconds
  rw [div_le_div_iff_of_pos_right (by positivity), Nat.cast_le]

theorem scale_pos : (0 : ℚ) < TOKEN_SCALE := by
  unfold TOKEN_SCALE
  norm_num

/-- Saturation does not matter below the capacity. -/
theorem scaledTokens_refill (budget : RetryBudget) (hcapacity : budget.capacity ≤ u32Max)
    (state : BudgetState) (now : Nat) : (budget.refill state now).scaledTokens =
      min budget.maximum
        (state.scaledTokens + (now - state.lastRefill) * budget.refillPerSecond) := by
  have hmax : budget.maximum ≤ u128Max := by
    have hle : budget.maximum ≤ u32Max * TOKEN_SCALE := Nat.mul_le_mul_right _ hcapacity
    exact Nat.le_trans hle (by decide)
  unfold refill
  dsimp only
  omega

theorem level_refill (budget : RetryBudget) (hcapacity : budget.capacity ≤ u32Max)
    (state : BudgetState) {now : Nat} (hnow : state.lastRefill ≤ now) :
    level (budget.refill state now) = budget.ideal.refill (level state) (seconds now) := by
  have hscale := scale_pos
  have hscaled : (TOKEN_SCALE : ℚ) = 10 ^ 9 := by
    unfold TOKEN_SCALE
    norm_num
  have htokens : (((budget.refill state now).scaledTokens : Nat) : ℚ) / TOKEN_SCALE =
      min (budget.capacity : ℚ) (state.scaledTokens / TOKEN_SCALE +
        budget.refillPerSecond * (seconds now - seconds state.lastRefill)) := by
    rw [scaledTokens_refill budget hcapacity, Nat.cast_min, ← min_div_div_right hscale.le]
    congr 1
    · rw [maximum, Nat.cast_mul, mul_div_assoc, div_self hscale.ne', mul_one]
    · unfold seconds
      rw [Nat.cast_add, Nat.cast_mul, Nat.cast_sub hnow, hscaled]
      ring
  exact congrArg (TokenBucket.Level.mk · (seconds now)) htokens

/-- **An attempt is the ideal bucket's.** -/
theorem acquire_level (budget : RetryBudget) (hcapacity : budget.capacity ≤ u32Max)
    (state : BudgetState) {now : Nat} (hnow : state.lastRefill ≤ now) :
    budget.ideal.acquire (level state) (seconds now) =
      ((budget.tryAcquire state now).1, level (budget.tryAcquire state now).2) := by
  have hscale := scale_pos
  have henough : 1 ≤ (level (budget.refill state now)).tokens ↔
      TOKEN_SCALE ≤ (budget.refill state now).scaledTokens := by
    show (1 : ℚ) ≤ _ / _ ↔ _
    rw [one_le_div hscale, Nat.cast_le]
  unfold TokenBucket.acquire tryAcquire
  rw [← level_refill budget hcapacity state hnow]
  dsimp only
  by_cases h : TOKEN_SCALE ≤ (budget.refill state now).scaledTokens
  · rw [if_pos (henough.mpr h), if_neg (not_lt.mpr h)]
    refine Prod.ext rfl ?_
    show TokenBucket.Level.mk _ _ = level _
    unfold level
    rw [Nat.cast_sub h, sub_div, div_self hscale.ne']
  · rw [if_neg (henough.not.mpr h), if_pos (not_le.mp h)]

/-! ## Whole runs -/

variable {budget : RetryBudget}

theorem lastRefill_tryAcquire (state : BudgetState) (now : Nat) :
    (budget.tryAcquire state now).2.lastRefill = now := by
  unfold tryAcquire refill
  dsimp only
  split <;> rfl

/-- The code and the ideal bucket grant the same, if they agree at the last refill: the
ideal bucket need not have been looked at since. -/
theorem grants_eq (hcapacity : budget.capacity ≤ u32Max) (uses : List BudgetUse) :
    ∀ (state : BudgetState) (s : TokenBucket.Level ℚ), s.at_ ≤ seconds state.lastRefill →
      level state = budget.ideal.refill s (seconds state.lastRefill) →
      (∀ u ∈ uses, state.lastRefill ≤ u.now) → (uses.map BudgetUse.now).Pairwise (· ≤ ·) →
      (budget.grants state uses).map (fun g => (seconds g.1, g.2)) =
        budget.ideal.grants s ((BudgetUse.acquires uses).map seconds) := by
  have hrate : 0 ≤ budget.ideal.rate := Nat.cast_nonneg _
  induction uses with
  | nil => intro _ _ _ _ _ _; rfl
  | cons u uses ih =>
    intro state s hat hlevel hlater hsorted
    obtain ⟨hu, -⟩ := List.forall_mem_cons.mp hlater
    obtain ⟨hfirst, hrest⟩ := List.pairwise_cons.mp hsorted
    have hfirst : ∀ u' ∈ uses, u.now ≤ u'.now := fun u' hu' => hfirst _ (List.mem_map_of_mem hu')
    have hsecs : seconds state.lastRefill ≤ seconds u.now := (seconds_le).mpr hu
    cases u with
    | poll now =>
      have hu : state.lastRefill ≤ now := hu
      refine ih (budget.refill state now) s (hat.trans hsecs) ?_ hfirst hrest
      rw [level_refill budget hcapacity state hu, hlevel]
      exact TokenBucket.refill_refill hrate hsecs
    | acquire now =>
      have hu : state.lastRefill ≤ now := hu
      have hacquire : budget.ideal.acquire s (seconds now) =
          ((budget.tryAcquire state now).1, level (budget.tryAcquire state now).2) := by
        rw [← acquire_level budget hcapacity state hu, hlevel]
        exact (TokenBucket.acquire_refill hrate hsecs).symm
      have hstate : (budget.ideal.acquire s (seconds now)).2 =
          level (budget.tryAcquire state now).2 := by rw [hacquire]
      have hnow : (budget.ideal.acquire s (seconds now)).2.at_ =
          seconds (budget.tryAcquire state now).2.lastRefill := by rw [hstate]; rfl
      have hgrants := ih (budget.tryAcquire state now).2 (budget.ideal.acquire s (seconds now)).2
        hnow.le (by rw [← hnow, TokenBucket.refill_self (TokenBucket.tokens_acquire_le _ _), hstate])
        (by rw [lastRefill_tryAcquire]; exact hfirst) hrest
      show (seconds now, (budget.tryAcquire state now).1) :: _ =
        (seconds now, (budget.ideal.acquire s (seconds now)).1) ::
          budget.ideal.grants (budget.ideal.acquire s (seconds now)).2
            ((BudgetUse.acquires uses).map seconds)
      rw [← hgrants, hacquire]

theorem scaledTokens_use_le (state : BudgetState) (u : BudgetUse) :
    (budget.use state u).scaledTokens ≤ budget.maximum := by
  have hrefill (now : Nat) : (budget.refill state now).scaledTokens ≤ budget.maximum :=
    Nat.min_le_right _ _
  cases u with
  | poll now => exact hrefill now
  | acquire now =>
    unfold use tryAcquire
    dsimp only
    split
    · exact hrefill now
    · exact Nat.le_trans (Nat.sub_le _ _) (hrefill now)

theorem scaledTokens_run_le (start : Nat) (uses : List BudgetUse) :
    (uses.foldl budget.use (budget.fresh start)).scaledTokens ≤ budget.maximum := by
  induction uses using List.reverseRecOn with
  | nil => exact Nat.le_refl _
  | append_singleton uses u _ =>
    rw [List.foldl_concat]
    exact scaledTokens_use_le _ u

theorem level_fresh (start : Nat) :
    level (budget.fresh start) = budget.ideal.full (seconds start) := by
  have htokens : ((budget.capacity * TOKEN_SCALE : Nat) : ℚ) / TOKEN_SCALE = budget.capacity := by
    rw [Nat.cast_mul, mul_div_assoc, div_self (scale_pos).ne', mul_one]
  exact congrArg (TokenBucket.Level.mk · (seconds start)) htokens

theorem acquires_sublist (uses : List BudgetUse) :
    (BudgetUse.acquires uses).Sublist (uses.map BudgetUse.now) := by
  induction uses with
  | nil => exact List.Sublist.refl _
  | cons u uses ih =>
    cases u with
    | acquire now => exact ih.cons_cons now
    | poll now => exact ih.cons now

theorem taken_eq (t₀ t₁ : Nat) (gs : List (Nat × Bool)) : taken t₀ t₁ gs =
    TokenBucket.taken (seconds t₀) (seconds t₁) (gs.map fun g => (seconds g.1, g.2)) := by
  unfold taken TokenBucket.taken
  rw [List.countP_map]
  refine List.countP_congr fun g _ => ?_
  simp only [Function.comp, decide_eq_true_eq, seconds_le]

/-- The additions and products of a refill, on the type of their own. -/
structure NoOverflow (budget : RetryBudget) (state : BudgetState) (elapsed : Nat) : Prop where
  maximum : budget.capacity * TOKEN_SCALE ≤ u128Max
  replenished : elapsed * budget.refillPerSecond ≤ u128Max
  tokens : state.scaledTokens + elapsed * budget.refillPerSecond ≤ u128Max

theorem noOverflow (hcapacity : budget.capacity ≤ u32Max)
    (hrate : budget.refillPerSecond ≤ u32Max) {state : BudgetState}
    (hstate : state.scaledTokens ≤ budget.maximum) {elapsed : Nat}
    (helapsed : elapsed ≤ Duration.max) : NoOverflow budget state elapsed := by
  have hmaximum : budget.maximum ≤ u32Max * TOKEN_SCALE := Nat.mul_le_mul_right _ hcapacity
  have hreplenished : elapsed * budget.refillPerSecond ≤ Duration.max * u32Max :=
    Nat.mul_le_mul helapsed hrate
  have hbound : u32Max * TOKEN_SCALE + Duration.max * u32Max ≤ u128Max := by decide
  exact ⟨by unfold maximum at hmaximum; omega, by omega, by omega⟩

/-- **The retry budget is an exact token bucket.** -/
theorem exact_tokenBucket (budget : RetryBudget) (hcapacity : budget.capacity ≤ u32Max)
    (hrate : budget.refillPerSecond ≤ u32Max) {start : Nat} {uses : List BudgetUse}
    (horder : (start :: uses.map BudgetUse.now).Pairwise (· ≤ ·)) :
    let granted := budget.grants (budget.fresh start) uses
    let state := uses.foldl budget.use (budget.fresh start)
    granted.map (fun g => (seconds g.1, g.2)) =
        budget.ideal.grants (budget.ideal.full (seconds start))
          ((BudgetUse.acquires uses).map seconds) ∧
      (∀ t₀ t₁, t₀ ≤ t₁ → (taken t₀ t₁ granted : ℚ) ≤
        budget.capacity + budget.refillPerSecond * (seconds t₁ - seconds t₀)) ∧
      state.scaledTokens ≤ budget.maximum ∧
      ∀ elapsed ≤ Duration.max, NoOverflow budget state elapsed := by
  intro granted state
  obtain ⟨hfirst, hsorted⟩ := List.pairwise_cons.mp horder
  have hlater : ∀ u ∈ uses, start ≤ u.now := fun u hu => hfirst _ (List.mem_map_of_mem hu)
  have hgranted : granted.map (fun g => (seconds g.1, g.2)) =
      budget.ideal.grants (budget.ideal.full (seconds start))
        ((BudgetUse.acquires uses).map seconds) := by
    refine grants_eq hcapacity uses (budget.fresh start) (budget.ideal.full (seconds start))
      le_rfl ?_ hlater hsorted
    rw [level_fresh]
    exact (TokenBucket.refill_self le_rfl).symm
  have hstate : state.scaledTokens ≤ budget.maximum := scaledTokens_run_le start uses
  refine ⟨hgranted, fun t₀ t₁ ht => ?_, hstate, fun elapsed => noOverflow hcapacity hrate hstate⟩
  have hinstants : ((BudgetUse.acquires uses).map seconds).Pairwise (· ≤ ·) := by
    refine (hsorted.sublist (acquires_sublist uses)).map seconds ?_
    exact fun _ _ => (seconds_le).mpr
  have hstart : ∀ t ∈ (BudgetUse.acquires uses).map seconds, seconds start ≤ t := by
    intro t h
    obtain ⟨now, hnow, rfl⟩ := List.mem_map.mp h
    exact (seconds_le).mpr (hfirst now ((acquires_sublist uses).subset hnow))
  rw [taken_eq, hgranted]
  exact TokenBucket.taken_le (Nat.cast_nonneg _) (Nat.cast_nonneg _) ((seconds_le).mpr ht) _ _
    (Nat.cast_nonneg _) hstart hinstants

/-- Polled at every quarter of a second, at two tokens a second: the third attempt has
half a token to see, the fourth a whole one. -/
theorem exact_tokenBucket_polled :
    let budget : RetryBudget := ⟨2, 2⟩
    let uses : List BudgetUse := [.acquire 0, .acquire 0, .acquire 250000000, .poll 300000000,
      .acquire 500000000]
    budget.grants (budget.fresh 0) uses = [(0, true), (0, true), (250000000, false),
      (500000000, true)] ∧
    (budget.grants (budget.fresh 0) uses).map (fun g => (seconds g.1, g.2)) =
      budget.ideal.grants (budget.ideal.full (seconds 0))
        ((BudgetUse.acquires uses).map seconds) := by
  intro budget uses
  refine ⟨by decide +kernel, ?_⟩
  exact (exact_tokenBucket budget (by decide) (by decide) (by decide)).1

end RetryBudget

end Fusen.Resilience
