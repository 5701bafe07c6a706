import Mathlib.Data.List.Defs
import Mathlib.Tactic.Common

/-!
# Computations that take time

A `Timed α` is when, and with what, an asynchronous computation ends, if it ever does.
The clock is ideal: what is ready is seen at once, and a computation that ends just when
a timer fires is seen before the timer.  `timeoutAt` bounds a computation, `join` waits for
two of them and `bind` starts one where another has ended.
-/

namespace Lib

abbrev Timed (α : Type*) := Option (Nat × α)

namespace Timed

variable {α β : Type*}

/-- What the computation has yielded by the time `t`. -/
def doneBy (t : Nat) : Timed α → Option α
  | some x => if x.1 ≤ t then some x.2 else none
  | none => none

/-- A computation that is given up at the deadline: when it ends, and what it yields. -/
def timeoutAt (deadline : Nat) : Timed α → Nat × Option α
  | some x => if x.1 ≤ deadline then (x.1, some x.2) else (deadline, none)
  | none => (deadline, none)

/-- A computation that begins at `t`, where it took as long from zero. -/
def startedAt (t : Nat) (c : Timed α) : Timed α := c.map fun x => (t + x.1, x.2)

/-- Both results, when the later one is there. -/
def join (c : Timed α) (d : Timed β) : Timed (α × β) :=
  c.bind fun x => d.map fun y => (max x.1 y.1, x.2, y.2)

def mapValue (f : α → β) (c : Timed α) : Timed β := c.map fun x => (x.1, f x.2)

/-- The second computation begins where the first ends. -/
def andThen (c : Timed α) (f : Nat → α → Timed β) : Timed β := c.bind fun x => f x.1 x.2

section

variable {c : Timed α} {d : Timed β} {f : Nat → α → Timed β} {t : Nat}

theorem doneBy_some (x : Nat × α) (t : Nat) :
    doneBy t (some x) = if x.1 ≤ t then some x.2 else none :=
  rfl

theorem timeoutAt_some (x : Nat × α) (t : Nat) :
    timeoutAt t (some x) = if x.1 ≤ t then (x.1, some x.2) else (t, none) :=
  rfl

theorem doneBy_eq_some_iff {a : α} : c.doneBy t = some a ↔ ∃ e ≤ t, c = some (e, a) := by
  cases c with
  | none =>
    constructor
    · intro h
      cases h
    · rintro ⟨e, -, h⟩
      cases h
  | some x =>
    rw [doneBy_some]
    constructor
    · intro h
      split at h
      · rename_i hle
        cases h
        exact ⟨x.1, hle, rfl⟩
      · cases h
    · rintro ⟨e, hle, h⟩
      cases h
      exact if_pos hle

theorem timeoutAt_snd (c : Timed α) (t : Nat) : (c.timeoutAt t).2 = c.doneBy t := by
  cases c with
  | none => rfl
  | some x =>
    rw [timeoutAt_some, doneBy_some]
    split <;> rfl

theorem timeoutAt_fst_le (c : Timed α) (t : Nat) : (c.timeoutAt t).1 ≤ t := by
  cases c with
  | none => exact Nat.le_refl t
  | some x =>
    rw [timeoutAt_some]
    split
    · assumption
    · exact Nat.le_refl t

/-- A bound that comes from two deadlines is that of the earlier one. -/
theorem timeoutAt_min {s : Nat} (h : (c.timeoutAt t).1 ≤ s) :
    c.timeoutAt (min s t) = c.timeoutAt t := by
  cases c with
  | none => exact congrArg (·, none) (Nat.min_eq_right h)
  | some x =>
    rw [timeoutAt_some] at h ⊢
    rw [timeoutAt_some]
    by_cases hle : x.1 ≤ t
    · rw [if_pos hle] at h
      rw [if_pos hle, if_pos (Nat.le_min.mpr ⟨h, hle⟩)]
    · rw [if_neg hle] at h
      rw [Nat.min_eq_right h]

theorem timeoutAt_min_of_lt {s : Nat} (h : s < (c.timeoutAt t).1) :
    c.timeoutAt (min s t) = (s, none) := by
  have hst : s ≤ t := Nat.le_of_lt (Nat.lt_of_lt_of_le h (timeoutAt_fst_le c t))
  rw [Nat.min_eq_left hst]
  cases c with
  | none => rfl
  | some x =>
    rw [timeoutAt_some] at h ⊢
    refine if_neg fun hle => ?_
    rw [if_pos (Nat.le_trans hle hst)] at h
    exact absurd hle (Nat.not_le_of_lt h)

theorem timeoutAt_startedAt (c : Timed α) (s t : Nat) :
    (c.startedAt s).timeoutAt (s + t) = (s + (c.timeoutAt t).1, c.doneBy t) := by
  cases c with
  | none => rfl
  | some x =>
    show (if s + x.1 ≤ s + t then (s + x.1, some x.2) else (s + t, none)) = _
    rw [timeoutAt_some, doneBy_some]
    by_cases hle : x.1 ≤ t
    · rw [if_pos hle, if_pos hle, if_pos (Nat.add_le_add_left hle s)]
    · rw [if_neg hle, if_neg hle, if_neg fun h => hle (Nat.le_of_add_le_add_left h)]

theorem doneBy_join {x : α × β} :
    (c.join d).doneBy t = some x ↔ c.doneBy t = some x.1 ∧ d.doneBy t = some x.2 := by
  simp only [doneBy_eq_some_iff]
  constructor
  · rintro ⟨e, he, h⟩
    obtain ⟨y, rfl, hd⟩ := Option.bind_eq_some_iff.mp h
    obtain ⟨z, rfl, heq⟩ := Option.map_eq_some_iff.mp hd
    cases heq
    exact ⟨⟨y.1, Nat.le_trans (Nat.le_max_left _ _) he, rfl⟩, z.1, Nat.le_trans (Nat.le_max_right _ _) he, rfl⟩
  · rintro ⟨⟨e, he, rfl⟩, e', he', rfl⟩
    exact ⟨max e e', Nat.max_le.mpr ⟨he, he'⟩, rfl⟩

theorem doneBy_mapValue (f : α → β) (c : Timed α) (t : Nat) :
    (c.mapValue f).doneBy t = (c.doneBy t).map f := by
  cases c with
  | none => rfl
  | some x =>
    show (if x.1 ≤ t then some (f x.2) else none) = _
    rw [doneBy_some]
    split <;> rfl

theorem doneBy_andThen {b : β} : (c.andThen f).doneBy t = some b ↔
    ∃ e a, c = some (e, a) ∧ (f e a).doneBy t = some b := by
  cases c with
  | none =>
    constructor
    · intro h
      cases h
    · rintro ⟨e, a, h, -⟩
      cases h
  | some x =>
    constructor
    · exact fun h => ⟨x.1, x.2, rfl, h⟩
    · rintro ⟨e, a, heq, h⟩
      cases heq
      exact h

end

end Timed

end Lib
