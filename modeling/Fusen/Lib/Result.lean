import Mathlib.Data.List.Forall2

/-!
# Fallible loops

What the success of `mapM` and of a chain of `Except` steps says about the single
steps.
-/

namespace Lib

universe u v

variable {ε : Type u} {α β : Type v}

theorem Except.bind_eq_ok_iff {x : Except ε α} {f : α → Except ε β} {b : β} :
    (x >>= f) = .ok b ↔ ∃ a, x = .ok a ∧ f a = .ok b := by
  cases x with
  | error e =>
    constructor
    · intro h
      cases h
    · rintro ⟨_, h, _⟩
      cases h
  | ok a =>
    constructor
    · exact fun h => ⟨a, rfl, h⟩
    · rintro ⟨a', ⟨⟩, h⟩
      exact h

theorem Except.map_eq_ok_iff {x : Except ε α} {f : α → β} {b : β} :
    x.map f = .ok b ↔ ∃ a, x = .ok a ∧ f a = b := by
  cases x <;> simp [Except.map]

theorem Except.mapM_eq_ok_iff {f : α → Except ε β} {l : List α} {l' : List β} :
    l.mapM f = .ok l' ↔ List.Forall₂ (fun a b => f a = .ok b) l l' := by
  induction l generalizing l' with
  | nil =>
    rw [List.mapM_nil, List.forall₂_nil_left_iff]
    exact ⟨fun h => by cases h; rfl, fun h => by rw [h]; rfl⟩
  | cons a l ih =>
    rw [List.mapM_cons, Except.bind_eq_ok_iff, List.forall₂_cons_left_iff]
    constructor
    · rintro ⟨b, hb, h⟩
      obtain ⟨bs, hbs, h⟩ := (Except.bind_eq_ok_iff).mp h
      cases h
      exact ⟨b, bs, hb, ih.mp hbs, rfl⟩
    · rintro ⟨b, bs, hb, hbs, rfl⟩
      exact ⟨b, hb, (Except.bind_eq_ok_iff).mpr ⟨bs, ih.mpr hbs, rfl⟩⟩

/-- A loop over steps that all succeed succeeds. -/
theorem Except.mapM_ok_of_forall {f : α → Except ε β} {R : α → β → Prop} {l : List α}
    (h : ∀ a ∈ l, ∃ b, f a = .ok b ∧ R a b) : ∃ l', l.mapM f = .ok l' ∧ List.Forall₂ R l l' := by
  induction l with
  | nil => exact ⟨[], rfl, .nil⟩
  | cons a l ih =>
    rw [List.forall_mem_cons] at h
    obtain ⟨b, hb, hr⟩ := h.1
    obtain ⟨l', hl', hrs⟩ := ih h.2
    refine ⟨b :: l', ?_, .cons hr hrs⟩
    rw [Except.mapM_eq_ok_iff] at hl' ⊢
    exact .cons hb hl'

/-- What every step of a loop with a state keeps, the loop keeps. -/
theorem Except.foldlM_invariant {f : β → α → Except ε β} {P : β → Prop}
    (hstep : ∀ s a s', P s → f s a = .ok s' → P s') {l : List α} {s s' : β}
    (h : l.foldlM f s = .ok s') (hs : P s) : P s' := by
  induction l generalizing s with
  | nil =>
    cases h
    exact hs
  | cons a l ih =>
    rw [List.foldlM_cons] at h
    obtain ⟨t, ht, h⟩ := (Except.bind_eq_ok_iff).mp h
    exact ih h (hstep s a t hs ht)

theorem Option.mapM_eq_some_iff {f : α → Option β} {l : List α} {l' : List β} :
    l.mapM f = some l' ↔ List.Forall₂ (fun a b => f a = some b) l l' := by
  induction l generalizing l' with
  | nil =>
    rw [List.mapM_nil, List.forall₂_nil_left_iff]
    exact ⟨fun h => by cases h; rfl, fun h => by rw [h]; rfl⟩
  | cons a l ih =>
    rw [List.mapM_cons, List.forall₂_cons_left_iff]
    constructor
    · intro h
      obtain ⟨b, hb, h⟩ := Option.bind_eq_some_iff.mp h
      obtain ⟨bs, hbs, h⟩ := Option.bind_eq_some_iff.mp h
      cases h
      exact ⟨b, bs, hb, ih.mp hbs, rfl⟩
    · rintro ⟨b, bs, hb, hbs, rfl⟩
      exact Option.bind_eq_some_iff.mpr ⟨b, hb, Option.bind_eq_some_iff.mpr ⟨bs, ih.mpr hbs, rfl⟩⟩

theorem forall₂_append_left_iff {γ : Type*} {R : α → γ → Prop} {l₁ l₂ : List α} {m : List γ} :
    List.Forall₂ R (l₁ ++ l₂) m ↔
      ∃ m₁ m₂, List.Forall₂ R l₁ m₁ ∧ List.Forall₂ R l₂ m₂ ∧ m = m₁ ++ m₂ := by
  constructor
  · intro h
    induction l₁ generalizing m with
    | nil => exact ⟨[], m, .nil, h, rfl⟩
    | cons a l₁ ih =>
      cases h with
      | @cons _ b _ m hb h =>
        obtain ⟨m₁, m₂, h₁, h₂, rfl⟩ := ih h
        exact ⟨b :: m₁, m₂, .cons hb h₁, h₂, rfl⟩
  · rintro ⟨m₁, m₂, h₁, h₂, rfl⟩
    exact List.rel_append h₁ h₂

theorem map_eq_of_forall₂ {γ δ : Type*} {f : α → δ} {g : γ → δ} {l : List α} {m : List γ}
    (h : List.Forall₂ (fun a b => g b = f a) l m) : m.map g = l.map f := by
  induction h with
  | nil => rfl
  | cons hab _ ih => rw [List.map_cons, List.map_cons, hab, ih]

theorem forall₂_mem_left {γ : Type*} {R : α → γ → Prop} {l : List α} {m : List γ}
    (h : List.Forall₂ R l m) {a : α} (ha : a ∈ l) : ∃ b ∈ m, R a b := by
  induction h with
  | nil => simp at ha
  | cons hr _ ih =>
    rcases List.mem_cons.mp ha with rfl | ha
    · exact ⟨_, List.mem_cons_self .., hr⟩
    · obtain ⟨b, hb, hr⟩ := ih ha
      exact ⟨b, List.mem_cons_of_mem _ hb, hr⟩

theorem forall₂_mem_right {γ : Type*} {R : α → γ → Prop} {l : List α} {m : List γ}
    (h : List.Forall₂ R l m) {b : γ} (hb : b ∈ m) : ∃ a ∈ l, R a b := by
  induction h with
  | nil => simp at hb
  | cons hr _ ih =>
    rcases List.mem_cons.mp hb with rfl | hb
    · exact ⟨_, List.mem_cons_self .., hr⟩
    · obtain ⟨a, ha, hr⟩ := ih hb
      exact ⟨a, List.mem_cons_of_mem _ ha, hr⟩

end Lib
