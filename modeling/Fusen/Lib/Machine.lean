import Mathlib.Data.List.Induction

/-!
# Deterministic machines and their runs

A machine takes one step for each event it is given, so a run is the list of
its events.  `Machine.invariant` is the induction every safety proof uses;
`Machine.invariant_of_bound` is the same induction for an invariant that only
holds while some bound does (a counter that has not wrapped, say), where the
bound, once it is broken, stays broken.
-/

namespace Lib

structure Machine (σ ε : Type*) where
  init : σ
  step : σ → ε → σ

namespace Machine

variable {σ ε : Type*} (M : Machine σ ε)

/-- The state after the events `es`, oldest first. -/
def run (es : List ε) : σ := es.foldl M.step M.init

@[simp] theorem run_nil : M.run [] = M.init := rfl

@[simp] theorem run_concat (es : List ε) (e : ε) : M.run (es ++ [e]) = M.step (M.run es) e := by
  simp [run]

/-- What holds initially and is kept by every step holds after every run. -/
theorem invariant {I : σ → Prop} (hinit : I M.init) (hstep : ∀ s e, I s → I (M.step s e)) :
    ∀ es, I (M.run es) := by
  intro es
  induction es using List.reverseRecOn with
  | nil => exact hinit
  | append_singleton es e ih =>
    rw [run_concat]
    exact hstep _ _ ih

/-- What steps keep next to an invariant `J`, once true, stays true. -/
theorem stable {J I : σ → Prop} (hJ : ∀ es, J (M.run es))
    (hstep : ∀ s e, J s → I s → I (M.step s e)) {es : List ε} (h : I (M.run es))
    (later : List ε) : I (M.run (es ++ later)) := by
  induction later using List.reverseRecOn with
  | nil => rwa [List.append_nil]
  | append_singleton later e ih =>
    rw [← List.append_assoc, run_concat]
    exact hstep _ _ (hJ _) ih

/-- The rule of `invariant` next to an invariant `J` that is known. -/
theorem invariant_next_to {J I : σ → Prop} (hJ : ∀ es, J (M.run es)) (hinit : I M.init)
    (hstep : ∀ s e, J s → I s → I (M.step s e)) (es : List ε) : I (M.run es) :=
  M.stable hJ hstep (show I (M.run []) from hinit) es

/-- The rule of `invariant` for an `I` that steps keep only while the bound `B` holds. -/
theorem invariant_of_bound {I B : σ → Prop} (hB : ∀ s e, B (M.step s e) → B s) (hinit : I M.init)
    (hstep : ∀ s e, I s → B (M.step s e) → I (M.step s e)) :
    ∀ es, B (M.run es) → I (M.run es) := by
  intro es
  induction es using List.reverseRecOn with
  | nil => exact fun _ => hinit
  | append_singleton es e ih =>
    rw [run_concat]
    exact fun hb => hstep _ _ (ih (hB _ _ hb)) hb

/-- The rule of `invariant` for the runs all of whose steps meet a condition `C`. -/
theorem invariant_of_steps {I : σ → Prop} {C : σ → ε → Prop} (hinit : I M.init)
    (hstep : ∀ s e, I s → C s e → I (M.step s e)) :
    ∀ es, (∀ before e after, es = before ++ e :: after → C (M.run before) e) → I (M.run es) := by
  intro es
  induction es using List.reverseRecOn with
  | nil => exact fun _ => hinit
  | append_singleton es e ih =>
    intro h
    rw [run_concat]
    refine hstep _ _ (ih fun before e' after heq => ?_) (h es e [] rfl)
    exact h before e' (after ++ [e]) (by simp [heq])

/-- What holds now and did not hold initially has held since some last step. -/
theorem exists_since {P : σ → Prop} (hinit : ¬ P M.init) {es : List ε} (h : P (M.run es)) :
    ∃ before e after, es = before ++ e :: after ∧ ¬ P (M.run before) ∧
      ∀ later rest, after = later ++ rest → P (M.run (before ++ e :: later)) := by
  induction es using List.reverseRecOn with
  | nil => exact absurd h hinit
  | append_singleton es e ih =>
    by_cases hes : P (M.run es)
    · obtain ⟨before, e', after, rfl, hbefore, hall⟩ := ih hes
      refine ⟨before, e', after ++ [e], by simp, hbefore, fun later rest hsplit => ?_⟩
      rcases List.eq_nil_or_concat rest with rfl | ⟨rest, x, rfl⟩
      · rw [List.append_nil] at hsplit
        rw [← hsplit]
        simpa using h
      · rw [List.concat_eq_append, ← List.append_assoc] at hsplit
        exact hall later rest (List.append_inj_left' hsplit rfl)
    · refine ⟨es, e, [], rfl, hes, fun later rest hsplit => ?_⟩
      obtain ⟨rfl, -⟩ := List.append_eq_nil_iff.mp hsplit.symm
      exact h

/-- An event that counts something down has counted it down after that many times. -/
theorem countdown (I : σ → Prop) (μ : σ → Nat) (e : ε) {es : List ε} (h : I (M.run es))
    (hstep : ∀ es, I (M.run es) →
      I (M.step (M.run es) e) ∧ μ (M.step (M.run es) e) ≤ μ (M.run es) - 1)
    (n : Nat) : I (M.run (es ++ List.replicate n e)) ∧
      μ (M.run (es ++ List.replicate n e)) ≤ μ (M.run es) - n := by
  induction n with
  | zero =>
    rw [List.replicate_zero, List.append_nil]
    exact ⟨h, Nat.le_refl _⟩
  | succ n ih =>
    obtain ⟨hi, hle⟩ := ih
    obtain ⟨hi', hle'⟩ := hstep _ hi
    rw [List.replicate_succ', ← List.append_assoc, run_concat]
    exact ⟨hi', Nat.le_trans hle' (by omega)⟩

end Machine

/-- What holds of every event of a run with the events before it, by position. -/
theorem forall_split_iff {ε : Type*} {P : List ε → ε → Prop} {es : List ε} :
    (∀ before e after, es = before ++ e :: after → P before e) ↔
      ∀ n (h : n < es.length), P (es.take n) es[n] := by
  constructor
  · intro hall n h
    exact hall _ _ (es.drop (n + 1)) (by rw [List.getElem_cons_drop, List.take_append_drop])
  · rintro hall before e after rfl
    simpa using hall before.length (by simp)

end Lib
