import Mathlib.Algebra.Order.BigOperators.Group.List
import Mathlib.Algebra.Order.Ring.Nat
import Mathlib.Tactic.Common
import Fusen.Lib.Machine

/-!
# Threads that take atomic steps on a shared state

A system of threads runs by interleaving: an event either starts a thread or
lets one thread take its next atomic step.  An event whose thread does not
exist, or cannot take the step, changes nothing, so every list of events is a
run and a theorem about all lists is a theorem about all interleavings.

`Threads.invariant` reduces an invariant to one step of one thread, and
`total_set` says how a sum over the threads changes when one of them moves.
-/

namespace Lib

/-- The shared state and the local states of the threads, oldest first. -/
structure Pool (σ τ : Type*) where
  shared : σ
  threads : List τ

/-- A scheduler's choice: start a thread, or let the thread `i` do `e`. -/
inductive Event (κ ε : Type*) where
  | spawn (kind : κ)
  | act (i : Nat) (e : ε)

/-- A system: the initial shared state, the first local state of each kind of
thread and the atomic steps (`none` where the thread cannot do this). -/
structure Threads (σ τ κ ε : Type*) where
  shared : σ
  start : κ → τ
  next : σ → τ → ε → Option (σ × τ)

namespace Threads

variable {σ τ κ ε : Type*} (T : Threads σ τ κ ε)

def step (p : Pool σ τ) : Event κ ε → Pool σ τ
  | .spawn kind => ⟨p.shared, p.threads ++ [T.start kind]⟩
  | .act i e =>
    match p.threads[i]? with
    | none => p
    | some t =>
      match T.next p.shared t e with
      | none => p
      | some (s', t') => ⟨s', p.threads.set i t'⟩

def machine : Machine (Pool σ τ) (Event κ ε) where
  init := ⟨T.shared, []⟩
  step := T.step

/-- The pool after the events `es`, oldest first. -/
def run (es : List (Event κ ε)) : Pool σ τ := T.machine.run es

@[simp] theorem run_nil : T.run [] = ⟨T.shared, []⟩ := rfl

theorem run_concat (es : List (Event κ ε)) (ev : Event κ ε) :
    T.run (es ++ [ev]) = T.step (T.run es) ev := T.machine.run_concat es ev

/-- What one event does: nothing, start one thread, or one step of one thread. -/
theorem step_cases (p : Pool σ τ) (ev : Event κ ε) :
    T.step p ev = p ∨
    (∃ kind, ev = .spawn kind ∧ T.step p ev = ⟨p.shared, p.threads ++ [T.start kind]⟩) ∨
    ∃ i e t s' t', ev = .act i e ∧ p.threads[i]? = some t ∧ T.next p.shared t e = some (s', t') ∧
      T.step p ev = ⟨s', p.threads.set i t'⟩ := by
  cases ev with
  | spawn kind => exact .inr (.inl ⟨kind, rfl, rfl⟩)
  | act i e =>
    cases ht : p.threads[i]? with
    | none => exact .inl (by simp only [step, ht])
    | some t =>
      cases hn : T.next p.shared t e with
      | none => exact .inl (by simp only [step, ht, hn])
      | some next =>
        refine .inr (.inr ⟨i, e, t, next.1, next.2, rfl, ht, hn, ?_⟩)
        simp only [step, ht, hn]

/-- **One step of one thread is enough.**  A property of the pool that a new
thread and every atomic step keep is kept by every event. -/
theorem step_keeps {I : Pool σ τ → Prop} {p : Pool σ τ}
    (hspawn : ∀ kind, I p → I ⟨p.shared, p.threads ++ [T.start kind]⟩)
    (hnext : ∀ i t e s' t', I p → p.threads[i]? = some t →
      T.next p.shared t e = some (s', t') → I ⟨s', p.threads.set i t'⟩)
    (ev : Event κ ε) (h : I p) : I (T.step p ev) := by
  rcases T.step_cases p ev with hs | ⟨kind, -, hs⟩ | ⟨i, e, t, s', t', -, ht, hn, hs⟩
  · rw [hs]; exact h
  · rw [hs]; exact hspawn kind h
  · rw [hs]; exact hnext i t e s' t' h ht hn

theorem invariant {I : Pool σ τ → Prop} (hinit : I ⟨T.shared, []⟩)
    (hspawn : ∀ p kind, I p → I ⟨p.shared, p.threads ++ [T.start kind]⟩)
    (hnext : ∀ p i t e s' t', I p → p.threads[i]? = some t →
      T.next p.shared t e = some (s', t') → I ⟨s', p.threads.set i t'⟩) :
    ∀ es, I (T.run es) :=
  T.machine.invariant hinit fun p ev h => T.step_keeps (hspawn p) (hnext p) ev h

/-- The rule of `invariant` for the runs all of whose events meet a condition `C`. -/
theorem invariant_of_steps {I : Pool σ τ → Prop} {C : Pool σ τ → Event κ ε → Prop}
    (hinit : I ⟨T.shared, []⟩)
    (hspawn : ∀ p kind, I p → I ⟨p.shared, p.threads ++ [T.start kind]⟩)
    (hnext : ∀ p i t e s' t', I p → C p (.act i e) → p.threads[i]? = some t →
      T.next p.shared t e = some (s', t') → I ⟨s', p.threads.set i t'⟩) :
    ∀ es, (∀ before ev after, es = before ++ ev :: after → C (T.run before) ev) → I (T.run es) := by
  refine T.machine.invariant_of_steps hinit fun p ev h hc => ?_
  show I (T.step p ev)
  rcases T.step_cases p ev with hs | ⟨kind, -, hs⟩ | ⟨i, e, t, s', t', rfl, ht, hn, hs⟩
  · rw [hs]; exact h
  · rw [hs]; exact hspawn p kind h
  · rw [hs]; exact hnext p i t e s' t' h hc ht hn

/-- A property that steps keep next to an invariant `J`, once true, stays true. -/
theorem stable {J I : Pool σ τ → Prop} (hJ : ∀ es, J (T.run es))
    (hspawn : ∀ p kind, J p → I p → I ⟨p.shared, p.threads ++ [T.start kind]⟩)
    (hnext : ∀ p i t e s' t', J p → I p → p.threads[i]? = some t →
      T.next p.shared t e = some (s', t') → I ⟨s', p.threads.set i t'⟩)
    {es : List (Event κ ε)} (h : I (T.run es)) (later : List (Event κ ε)) :
    I (T.run (es ++ later)) :=
  T.machine.stable hJ
    (fun p ev hj hi => T.step_keeps (fun kind => hspawn p kind hj)
      (fun i t e s' t' => hnext p i t e s' t' hj) ev hi) h later

end Threads

/-! ## Threads by index -/

section Indices

variable {τ : Type*} {ts : List τ} {i j : Nat} {t t' u : τ}

theorem getElem?_concat_iff :
    (ts ++ [t])[j]? = some u ↔ ts[j]? = some u ∨ j = ts.length ∧ u = t := by
  rcases Nat.lt_trichotomy j ts.length with h | rfl | h
  · rw [List.getElem?_append_left h]
    constructor
    · exact .inl
    · rintro (hu | ⟨rfl, -⟩)
      · exact hu
      · omega
  · simp [eq_comm]
  · rw [List.getElem?_eq_none (by simp; omega), List.getElem?_eq_none (by omega)]
    constructor
    · rintro ⟨⟩
    · rintro (⟨⟨⟩⟩ | ⟨rfl, -⟩)
      omega

/-- The thread at `j` after the thread `i` has moved to `t'`. -/
theorem getElem?_set_iff (hi : ts[i]? = some t) :
    (ts.set i t')[j]? = some u ↔ j = i ∧ u = t' ∨ j ≠ i ∧ ts[j]? = some u := by
  obtain ⟨hlt, -⟩ := List.getElem?_eq_some_iff.mp hi
  by_cases hj : i = j
  · subst hj
    rw [List.getElem?_set_self hlt]
    simp [eq_comm]
  · rw [List.getElem?_set_ne hj]
    simp [Ne.symm hj]

theorem mem_set_iff (hi : ts[i]? = some t) :
    u ∈ ts.set i t' ↔ u = t' ∨ ∃ j, j ≠ i ∧ ts[j]? = some u := by
  rw [List.mem_iff_getElem?]
  constructor
  · rintro ⟨j, hj⟩
    rcases (getElem?_set_iff hi).mp hj with ⟨-, rfl⟩ | ⟨hne, hu⟩
    · exact .inl rfl
    · exact .inr ⟨j, hne, hu⟩
  · rintro (rfl | ⟨j, hne, hu⟩)
    · exact ⟨i, (getElem?_set_iff hi).mpr (.inl ⟨rfl, rfl⟩)⟩
    · exact ⟨j, (getElem?_set_iff hi).mpr (.inr ⟨hne, hu⟩)⟩

end Indices

/-! ## Sums over threads -/

section Total

variable {τ : Type*} (w : τ → Nat)

/-- The sum of the threads' weights: how many there are of a kind, how much they hold. -/
def total (ts : List τ) : Nat := (ts.map w).sum

@[simp] theorem total_nil : total w [] = 0 := rfl

@[simp] theorem total_concat (ts : List τ) (t : τ) : total w (ts ++ [t]) = total w ts + w t := by
  simp [total]

variable {w} {ts : List τ} {i : Nat} {t t' : τ}

/-- When one thread moves, only its own weight changes in the sum. -/
theorem total_set (w : τ → Nat) (h : ts[i]? = some t) (t' : τ) :
    total w (ts.set i t') + w t = total w ts + w t' := by
  induction ts generalizing i with
  | nil => cases h
  | cons u us ih =>
    cases i with
    | zero =>
      obtain rfl : u = t := by simpa using h
      simp only [List.set_cons_zero, total, List.map_cons, List.sum_cons]
      omega
    | succ i =>
      have := ih (i := i) (by simpa using h)
      simp only [total, List.set_cons_succ, List.map_cons, List.sum_cons] at this ⊢
      omega

theorem le_total (h : t ∈ ts) : w t ≤ total w ts :=
  List.single_le_sum (fun _ _ => Nat.zero_le _) _ (List.mem_map_of_mem h)

theorem total_eq_zero_iff : total w ts = 0 ↔ ∀ t ∈ ts, w t = 0 := by
  simp [total, List.sum_eq_zero_iff]

theorem total_add (v : τ → Nat) : total (fun t => v t + w t) ts = total v ts + total w ts := by
  simp only [total]
  exact List.sum_map_add

theorem total_le_total {v : τ → Nat} (h : ∀ t ∈ ts, v t ≤ w t) : total v ts ≤ total w ts :=
  List.sum_le_sum h

end Total

end Lib
