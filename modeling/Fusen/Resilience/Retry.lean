import Fusen.Resilience.Breaker

/-!
# Retry decisions (`resilience/retry.rs`)

`decideWithGuards` applies the fixed limits, asks the policy and takes a token of the
budget last.  A policy is a function; `none` is its panic.  Durations and clock readings
are nanoseconds, and `u128` sums and products saturate at `u128Max`.
-/

namespace Fusen.Resilience

def u128Max : Nat := 2 ^ 128 - 1

def TOKEN_SCALE : Nat := 1000000000

def HARD_MAX_ATTEMPTS : Nat := 3

inductive RetryDecision
  | retry | stop
deriving DecidableEq, Repr

def hardAttemptLimit (configured : Nat) : Nat :=
  if configured = 0 then 1
  else if configured > HARD_MAX_ATTEMPTS then HARD_MAX_ATTEMPTS
  else configured

def hasNextAttempt (completedAttempts configured : Nat) : Bool :=
  completedAttempts < hardAttemptLimit configured

structure RetryDecisionContext where
  completedAttempts : Nat
  maxAttempts : Nat
  methodAllowsRetries : Bool
  failure : FailureClass
  remaining : Nat

def RetryDecisionContext.new (completedAttempts configuredMaxAttempts : Nat)
    (methodAllowsRetries : Bool) (failure : FailureClass) (remaining : Nat) :
    RetryDecisionContext where
  completedAttempts := max completedAttempts 1
  maxAttempts := hardAttemptLimit configuredMaxAttempts
  methodAllowsRetries
  failure
  remaining

abbrev RetryPolicy := RetryDecisionContext → Option RetryDecision

def standardRetryPolicy : RetryPolicy := fun context =>
  some (if context.methodAllowsRetries && context.failure.isRetryable then .retry else .stop)

/-! ## The budget -/

structure RetryBudget where
  capacity : Nat
  refillPerSecond : Nat

structure BudgetState where
  scaledTokens : Nat
  lastRefill : Nat
deriving DecidableEq

namespace RetryBudget

def maximum (budget : RetryBudget) : Nat := budget.capacity * TOKEN_SCALE

def refill (budget : RetryBudget) (state : BudgetState) (now : Nat) : BudgetState :=
  let elapsed := now - state.lastRefill
  let replenished := min (elapsed * budget.refillPerSecond) u128Max
  { scaledTokens := min (min (state.scaledTokens + replenished) u128Max) budget.maximum
    lastRefill := now }

/-- Whether a token was taken. -/
def tryAcquire (budget : RetryBudget) (state : BudgetState) (now : Nat) : Bool × BudgetState :=
  let state := budget.refill state now
  if state.scaledTokens < TOKEN_SCALE then (false, state)
  else (true, { state with scaledTokens := state.scaledTokens - TOKEN_SCALE })

end RetryBudget

/-! ## The decision -/

/-- The guards that come before the budget. -/
def guardsPass (policy : RetryPolicy) (context : RetryDecisionContext) : Option Bool :=
  if context.remaining = 0 ∨ hasNextAttempt context.completedAttempts context.maxAttempts = false ∨
      context.methodAllowsRetries = false ∨ context.failure.isRetryable = false then some false
  else (policy context).map fun decision => decision = .retry

/-- The decision, `none` for a panic of the policy, and the budget after it. -/
def decideWithGuards (policy : RetryPolicy) (context : RetryDecisionContext) (budget : RetryBudget)
    (state : BudgetState) (now : Nat) : Option RetryDecision × BudgetState :=
  match guardsPass policy context with
  | none => (none, state)
  | some false => (some .stop, state)
  | some true =>
    match budget.tryAcquire state now with
    | (true, state) => (some .retry, state)
    | (false, state) => (some .stop, state)

/-! ## Backoff -/

def exponentialCeiling (base cap retryOrdinal : Nat) : Nat :=
  min ((Duration.checkedMul base (2 ^ min (retryOrdinal - 1) 31)).getD cap) cap

/-- `draw` is the number the generator has drawn, uniformly up to the ceiling. -/
def fullJitterBackoff (base cap retryOrdinal draw : Nat) : Nat :=
  draw % (exponentialCeiling base cap retryOrdinal + 1)

/-! ## What a decision says -/

theorem hardAttemptLimit_le (configured : Nat) :
    hardAttemptLimit configured ≤ HARD_MAX_ATTEMPTS ∧ 1 ≤ hardAttemptLimit configured := by
  unfold hardAttemptLimit HARD_MAX_ATTEMPTS
  split
  · omega
  · split <;> omega

theorem hardAttemptLimit_hardAttemptLimit (configured : Nat) :
    hardAttemptLimit (hardAttemptLimit configured) = hardAttemptLimit configured := by
  obtain ⟨hle, hge⟩ := hardAttemptLimit_le configured
  generalize hardAttemptLimit configured = n at hle hge
  unfold hardAttemptLimit
  rw [if_neg (by omega), if_neg (by omega)]

theorem hardAttemptLimit_le_configured {configured : Nat} (h : 1 ≤ configured) :
    hardAttemptLimit configured ≤ min configured 3 := by
  unfold hardAttemptLimit HARD_MAX_ATTEMPTS
  split
  · omega
  · split <;> omega

/-- Every guard a granted retry has passed. -/
structure Granted (policy : RetryPolicy) (context : RetryDecisionContext) : Prop where
  remaining : 0 < context.remaining
  attempts : context.completedAttempts < hardAttemptLimit context.maxAttempts
  method : context.methodAllowsRetries = true
  failure : context.failure.isRetryable = true
  policy : policy context = some .retry

theorem guardsPass_eq_true_iff {policy : RetryPolicy} {context : RetryDecisionContext} :
    guardsPass policy context = some true ↔ Granted policy context := by
  unfold guardsPass
  constructor
  · intro h
    split at h
    · cases h
    · rename_i hguards
      rw [not_or, not_or, not_or, Bool.not_eq_false, Bool.not_eq_false, Bool.not_eq_false]
        at hguards
      obtain ⟨hremaining, hattempts, hmethod, hfailure⟩ := hguards
      obtain ⟨decision, hdecision, hretry⟩ := Option.map_eq_some_iff.mp h
      rw [decide_eq_true_eq] at hretry
      exact ⟨Nat.pos_of_ne_zero hremaining, of_decide_eq_true hattempts, hmethod, hfailure,
        hretry ▸ hdecision⟩
  · rintro ⟨hremaining, hattempts, hmethod, hfailure, hpolicy⟩
    rw [if_neg, hpolicy]
    · rfl
    · rw [not_or, not_or, not_or, Bool.not_eq_false, Bool.not_eq_false, Bool.not_eq_false]
      exact ⟨by omega, decide_eq_true hattempts, hmethod, hfailure⟩

/-- **A retry is granted exactly when every guard passes and a token is taken**, the last
thing that is tried. -/
theorem decideWithGuards_retry_iff {policy : RetryPolicy} {context : RetryDecisionContext}
    {budget : RetryBudget} {state state' : BudgetState} {now : Nat} :
    decideWithGuards policy context budget state now = (some .retry, state') ↔
      Granted policy context ∧ budget.tryAcquire state now = (true, state') := by
  unfold decideWithGuards
  cases hpass : guardsPass policy context with
  | none =>
    have hnot : ¬ Granted policy context := by
      rw [← guardsPass_eq_true_iff, hpass]
      nofun
    simp [hnot]
  | some pass =>
    cases pass with
    | false =>
      have hnot : ¬ Granted policy context := by
        rw [← guardsPass_eq_true_iff, hpass]
        nofun
      simp [hnot]
    | true =>
      have hgranted := (guardsPass_eq_true_iff).mp hpass
      simp only [hgranted, true_and]
      rcases budget.tryAcquire state now with ⟨taken, after⟩
      cases taken <;> simp

/-- Without a grant no token is taken: the budget is as it was, or was refilled. -/
theorem decideWithGuards_stop {policy : RetryPolicy} {context : RetryDecisionContext}
    {budget : RetryBudget} {state : BudgetState} {now : Nat}
    (h : (decideWithGuards policy context budget state now).1 ≠ some .retry) :
    (decideWithGuards policy context budget state now).2 = state ∨
      Granted policy context ∧ budget.tryAcquire state now = (false, budget.refill state now) ∧
        (decideWithGuards policy context budget state now).2 = budget.refill state now := by
  unfold decideWithGuards at h ⊢
  cases hpass : guardsPass policy context with
  | none => exact Or.inl rfl
  | some pass =>
    cases pass with
    | false => exact Or.inl rfl
    | true =>
      rw [hpass] at h
      have hgranted := (guardsPass_eq_true_iff).mp hpass
      unfold RetryBudget.tryAcquire at h ⊢
      by_cases hempty : (budget.refill state now).scaledTokens < TOKEN_SCALE
      · exact Or.inr ⟨hgranted, by simp [hempty], by simp [hempty]⟩
      · simp [hempty] at h

/-- What taking a token does to the budget. -/
theorem tryAcquire_true {budget : RetryBudget} {state state' : BudgetState} {now : Nat}
    (h : budget.tryAcquire state now = (true, state')) :
    state'.scaledTokens + TOKEN_SCALE = (budget.refill state now).scaledTokens := by
  unfold RetryBudget.tryAcquire at h
  by_cases hempty : (budget.refill state now).scaledTokens < TOKEN_SCALE
  · rw [if_pos hempty] at h
    cases h
  · rw [if_neg hempty] at h
    rw [← (Prod.mk.inj h).2]
    exact Nat.sub_add_cancel (Nat.not_lt.mp hempty)

/-! ## The attempts of an invocation -/

/-- The attempt numbers the loop of an invocation reaches. -/
inductive LoopAttempt (configured : Nat) (methodAllowsRetries : Bool) : Nat → Prop
  | first : LoopAttempt configured methodAllowsRetries 1
  | next {attempt : Nat} (h : LoopAttempt configured methodAllowsRetries attempt)
      {policy : RetryPolicy} {failure : FailureClass} {remaining : Nat}
      (hgranted : Granted policy
        (.new attempt configured methodAllowsRetries failure remaining)) :
      LoopAttempt configured methodAllowsRetries (min (attempt + 1) 255)

/-- **An attempt number is at most the limit**, and one unless the method allows retries. -/
theorem LoopAttempt.bounds {configured attempt : Nat} {methodAllowsRetries : Bool}
    (h : LoopAttempt configured methodAllowsRetries attempt) :
    1 ≤ attempt ∧ attempt ≤ hardAttemptLimit configured ∧
      (1 < attempt → methodAllowsRetries = true) := by
  induction h with
  | first => exact ⟨le_refl 1, (hardAttemptLimit_le configured).2, fun h => absurd h (by decide)⟩
  | @next attempt h policy failure remaining hgranted ih =>
    have hattempts := hgranted.attempts
    have hlimit := (hardAttemptLimit_le configured).1
    unfold RetryDecisionContext.new at hattempts
    simp only [hardAttemptLimit_hardAttemptLimit] at hattempts
    unfold HARD_MAX_ATTEMPTS at hlimit
    exact ⟨by omega, by omega, fun _ => hgranted.method⟩

end Fusen.Resilience
