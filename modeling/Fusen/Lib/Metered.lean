import Mathlib.Tactic.Common

/-!
# Metered computations

A metered computation counts the steps it pays for and keeps a log; it may fail, or run
out of the fuel that bounds its recursion.  `Settles` compares two of them when neither
runs out of fuel, and `Denotes` says what one does from every state whose budget suffices.
-/

namespace Lib

inductive Stop where
  | failure
  | fuel
  deriving DecidableEq, Repr

/-- The steps paid for, and what was recorded. -/
structure Meter (δ : Type) where
  visited : Nat
  log : List δ

abbrev Metered (δ α : Type) := StateT (Meter δ) (Except Stop) α

namespace Metered

variable {δ α β : Type}

def fail : Metered δ α := throw .failure

def require (p : Prop) [Decidable p] : Metered δ Unit := if p then pure () else fail

/-- The value, or a failure where there is none. -/
def orFail : Option α → Metered δ α
  | none => fail
  | some a => pure a

def record (entry : δ) : Metered δ Unit := modify fun st => { st with log := st.log ++ [entry] }

/-! ## Results -/

variable {st st' : Meter δ}

theorem bind_ok {x : Metered δ α} {f : α → Metered δ β} {b : β} :
    (x >>= f) st = .ok (b, st') ↔ ∃ a st₁, x st = .ok (a, st₁) ∧ f a st₁ = .ok (b, st') := by
  show (x st >>= fun r => f r.1 r.2) = _ ↔ _
  cases x st with
  | error e => exact ⟨nofun, fun ⟨_, _, h, _⟩ => nomatch h⟩
  | ok r => exact ⟨fun h => ⟨r.1, r.2, rfl, h⟩, fun ⟨_, _, h, hf⟩ => by cases h; exact hf⟩

theorem pure_ok {a b : α} : (pure a : Metered δ α) st = .ok (b, st') ↔ a = b ∧ st = st' := by
  show Except.ok (a, st) = .ok (b, st') ↔ _
  rw [Except.ok.injEq, Prod.mk.injEq]

theorem fail_ok {a : α} : (fail : Metered δ α) st = .ok (a, st') ↔ False := by
  constructor
  · exact nofun
  · exact False.elim

theorem require_ok {p : Prop} [Decidable p] {u : Unit} :
    (require p : Metered δ Unit) st = .ok (u, st') ↔ p ∧ st = st' := by
  unfold require
  by_cases h : p
  · rw [if_pos h, pure_ok]
    exact ⟨fun hu => ⟨h, hu.2⟩, fun hu => ⟨rfl, hu.2⟩⟩
  · rw [if_neg h, fail_ok]
    exact ⟨False.elim, fun hu => h hu.1⟩

theorem orFail_ok {o : Option α} {a : α} :
    (orFail o : Metered δ α) st = .ok (a, st') ↔ o = some a ∧ st = st' := by
  cases o with
  | none => exact (fail_ok).trans ⟨False.elim, fun h => nomatch h.1⟩
  | some b => exact (pure_ok).trans (by rw [Option.some.injEq])

/-! ## Enough fuel -/

/-- The computations are the same, and neither runs out of fuel. -/
structure Settles (x x' : Metered δ α) : Prop where
  same : x = x'
  fueled : ∀ st, x st ≠ .error .fuel

theorem settles_pure (a : α) : Settles (pure a : Metered δ α) (pure a) := ⟨rfl, fun _ => nofun⟩

theorem settles_fail : Settles (fail : Metered δ α) fail := ⟨rfl, fun _ => nofun⟩

theorem settles_require (p : Prop) [Decidable p] :
    Settles (require p : Metered δ Unit) (require p) := by
  unfold require
  split
  · exact settles_pure ()
  · exact settles_fail

theorem settles_orFail (o : Option α) : Settles (orFail o : Metered δ α) (orFail o) := by
  cases o with
  | none => exact settles_fail
  | some a => exact settles_pure a

/-- What follows need only settle for the results there can be. -/
theorem Settles.bind {x x' : Metered δ α} {f f' : α → Metered δ β} (hx : Settles x x')
    (hf : ∀ st a st', x st = .ok (a, st') → Settles (f a) (f' a)) :
    Settles (x >>= f) (x' >>= f') := by
  obtain ⟨rfl, hfueled⟩ := hx
  have hrun (g : α → Metered δ β) (st : Meter δ) : (x >>= g) st =
      match x st with
      | .error e => .error e
      | .ok (a, st') => g a st' := by
    show (x st >>= fun r => g r.1 r.2) = _
    cases x st <;> rfl
  constructor
  · funext st
    rw [hrun, hrun]
    cases hst : x st with
    | error e => rfl
    | ok r => exact congrFun (hf st r.1 r.2 hst).same r.2
  · intro st
    rw [hrun]
    cases hst : x st with
    | error e =>
      intro h
      cases h
      exact hfueled st hst
    | ok r => exact (hf st r.1 r.2 hst).fueled r.2

theorem Settles.trans {x y z : Metered δ α} (h : Settles x y) (h' : Settles y z) : Settles x z :=
  ⟨h.same.trans h'.same, h.fueled⟩

/-! ## What a computation does -/

/-- The results, the steps each of them takes and what is recorded for it. -/
abbrev Effects (δ α : Type) := α → Nat → List δ → Prop

/-- A check takes a fixed number of steps and records nothing. -/
def checks (p : Prop) (steps : Nat) : Effects δ Unit := fun _ n log => p ∧ n = steps ∧ log = []

/-- Each entry is a reply to those before it. -/
def Replies (reply : List δ → δ → Prop) : List δ → List δ → Prop
  | _, [] => True
  | history, entry :: log => reply history entry ∧ Replies reply (history ++ [entry]) log

theorem replies_append {reply : List δ → δ → Prop} {history log log' : List δ} :
    Replies reply history (log ++ log') ↔
      Replies reply history log ∧ Replies reply (history ++ log) log' := by
  induction log generalizing history with
  | nil => simp [Replies]
  | cons entry log ih => simp [Replies, ih, and_assoc]

/-- A reply that does not look at the history may come in any order. -/
theorem replies_iff_forall {reply : δ → Prop} {history log : List δ} :
    Replies (fun _ => reply) history log ↔ ∀ entry ∈ log, reply entry := by
  induction log generalizing history with
  | nil => simp [Replies]
  | cons entry log ih => simp [Replies, ih]

/-- From every state within the budget the computation ends with exactly the results that
the effects allow and the budget pays for. -/
def Denotes (budget : Nat) (reply : List δ → δ → Prop) (x : Metered δ α) (effects : Effects δ α) :
    Prop :=
  ∀ st : Meter δ, st.visited ≤ budget → ∀ a st', x st = .ok (a, st') ↔
    ∃ n log, effects a n log ∧ Replies reply st.log log ∧ st.visited + n ≤ budget ∧
      st' = ⟨st.visited + n, st.log ++ log⟩

section Denotes

variable {budget : Nat} {reply : List δ → δ → Prop} {effects effects' : Effects δ α}

theorem Denotes.congr {x : Metered δ α} (h : Denotes budget reply x effects)
    (heq : ∀ a n log, effects a n log ↔ effects' a n log) : Denotes budget reply x effects' := by
  intro st hst a st'
  rw [h st hst a st']
  exact exists_congr fun n => exists_congr fun log => and_congr_left fun _ => heq a n log

theorem denotes_fail : Denotes budget reply (fail : Metered δ α) fun _ _ _ => False := by
  intro st _ a st'
  rw [fail_ok]
  exact ⟨False.elim, fun ⟨_, _, h, _⟩ => h⟩

theorem denotes_pure (a : α) :
    Denotes budget reply (pure a) fun b n log => b = a ∧ n = 0 ∧ log = [] := by
  intro st hst b st'
  rw [pure_ok]
  constructor
  · rintro ⟨rfl, rfl⟩
    exact ⟨0, [], ⟨rfl, rfl, rfl⟩, trivial, hst, by rw [Nat.add_zero, List.append_nil]⟩
  · rintro ⟨_, _, ⟨rfl, rfl, rfl⟩, -, -, rfl⟩
    rw [Nat.add_zero, List.append_nil]
    exact ⟨rfl, rfl⟩

theorem denotes_require (p : Prop) [Decidable p] :
    Denotes budget reply (require p) (checks p 0) := by
  unfold require
  split
  · refine (denotes_pure ()).congr fun _ n log => ⟨fun h => ⟨‹p›, h.2⟩, fun h => ⟨rfl, h.2⟩⟩
  · exact denotes_fail.congr fun _ n log => ⟨False.elim, fun h => ‹¬p› h.1⟩

/-- One computation after another: steps add up and logs are joined. -/
theorem Denotes.bind {x : Metered δ α} {f : α → Metered δ β} {after : α → Effects δ β}
    (hx : Denotes budget reply x effects)
    (hf : ∀ a n log, effects a n log → Denotes budget reply (f a) (after a)) :
    Denotes budget reply (x >>= f) fun b n log => ∃ a n₁ log₁ n₂ log₂, effects a n₁ log₁ ∧
      after a b n₂ log₂ ∧ n = n₁ + n₂ ∧ log = log₁ ++ log₂ := by
  intro st hst b st'
  rw [bind_ok]
  constructor
  · rintro ⟨a, st₁, hfirst, hsecond⟩
    obtain ⟨n₁, log₁, heffects, hreplies, hbudget, rfl⟩ := (hx st hst a st₁).mp hfirst
    obtain ⟨n₂, log₂, hafter, hreplies', hbudget', rfl⟩ := 
      (hf a n₁ log₁ heffects _ hbudget b st').mp hsecond
    refine ⟨n₁ + n₂, log₁ ++ log₂, ⟨a, n₁, log₁, n₂, log₂, heffects, hafter, rfl, rfl⟩,
      (replies_append).mpr ⟨hreplies, hreplies'⟩, ?_, ?_⟩
    · rw [← Nat.add_assoc]
      exact hbudget'
    · rw [Nat.add_assoc, List.append_assoc]
  · rintro ⟨_, _, ⟨a, n₁, log₁, n₂, log₂, heffects, hafter, rfl, rfl⟩, hreplies, hbudget, rfl⟩
    obtain ⟨hreplies, hreplies'⟩ := (replies_append).mp hreplies
    have hfirst : st.visited + n₁ ≤ budget := by omega
    refine ⟨a, ⟨st.visited + n₁, st.log ++ log₁⟩,
      (hx st hst a _).mpr ⟨n₁, log₁, heffects, hreplies, hfirst, rfl⟩, ?_⟩
    refine (hf a n₁ log₁ heffects _ hfirst b _).mpr ⟨n₂, log₂, hafter, hreplies', ?_, ?_⟩
    · rw [Nat.add_assoc]
      exact hbudget
    · rw [Nat.add_assoc, List.append_assoc]

/-- Nothing follows a failure. -/
theorem denotes_fail_bind (f : α → Metered δ β) :
    Denotes budget reply (fail >>= f) fun _ _ _ => False := by
  intro st _ b st'
  rw [bind_ok]
  exact ⟨fun ⟨_, _, h, _⟩ => ((fail_ok).mp h).elim, fun ⟨_, _, h, _⟩ => h.elim⟩

theorem Denotes.afterCheck {x : Metered δ Unit} {y : Metered δ α} {p : Prop} {steps : Nat}
    (hx : Denotes budget reply x (checks p steps)) (hy : p → Denotes budget reply y effects) :
    Denotes budget reply (do x; y) fun a n log => p ∧ ∃ m, n = steps + m ∧ effects a m log := by
  refine (hx.bind fun _ _ _ h => hy h.1).congr fun a n log => ?_
  constructor
  · rintro ⟨_, _, _, m, log', ⟨hp, rfl, rfl⟩, heffects, rfl, rfl⟩
    exact ⟨hp, m, rfl, heffects⟩
  · rintro ⟨hp, m, rfl, heffects⟩
    exact ⟨(), steps, [], m, log, ⟨hp, rfl, rfl⟩, heffects, rfl, rfl⟩

theorem Denotes.thenCheck {x y : Metered δ Unit} {p q : Prop} {steps steps' : Nat}
    (hx : Denotes budget reply x (checks p steps))
    (hy : p → Denotes budget reply y (checks q steps')) :
    Denotes budget reply (do x; y) (checks (p ∧ q) (steps + steps')) := by
  refine (hx.afterCheck hy).congr fun a n log => ?_
  constructor
  · rintro ⟨hp, m, rfl, hq, rfl, rfl⟩
    exact ⟨⟨hp, hq⟩, rfl, rfl⟩
  · rintro ⟨⟨hp, hq⟩, rfl, rfl⟩
    exact ⟨hp, steps', rfl, hq, rfl, rfl⟩

theorem Denotes.afterSome {o : Option α} {f : α → Metered δ β} {after : α → Effects δ β}
    (hf : ∀ a, o = some a → Denotes budget reply (f a) (after a)) :
    Denotes budget reply (orFail o >>= f) fun b n log => ∃ a, o = some a ∧ after a b n log := by
  cases o with
  | none =>
    exact (denotes_fail_bind f).congr fun b n log => ⟨False.elim, fun ⟨_, h, _⟩ => nomatch h⟩
  | some a =>
    refine (hf a rfl).congr fun b n log => ⟨fun h => ⟨a, rfl, h⟩, ?_⟩
    rintro ⟨_, ha, h⟩
    cases ha
    exact h

/-- Someone is asked, who knows what was recorded; the answer is recorded as an entry. -/
theorem Denotes.afterReply {ε : Type} {ask : List δ → Option ε} {entry : ε → δ}
    {f : ε → Metered δ β} {after : ε → Effects δ β}
    (hreply : ∀ history e, reply history (entry e) ↔ ask history = some e)
    (hf : ∀ e, Denotes budget reply (f e) (after e)) :
    Denotes budget reply (do
        let e ← orFail (ask (← get).log)
        record (entry e)
        f e)
      fun b n log => ∃ e log', log = entry e :: log' ∧ after e b n log' := by
  intro st hst b st'
  have hask (e : ε) (st₁ : Meter δ) :
      (record (entry e) : Metered δ Unit) st = .ok ((), st₁) ↔
        st₁ = ⟨st.visited, st.log ++ [entry e]⟩ := by
    show Except.ok ((), _) = Except.ok ((), st₁) ↔ _
    rw [Except.ok.injEq, Prod.mk.injEq]
    exact ⟨fun h => h.2.symm, fun h => ⟨rfl, h.symm⟩⟩
  have hrun : (do
        let e ← orFail (ask (← get).log)
        record (entry e)
        f e : Metered δ β) st = .ok (b, st') ↔
      ∃ e, ask st.log = some e ∧ f e ⟨st.visited, st.log ++ [entry e]⟩ = .ok (b, st') := by
    rw [bind_ok]
    constructor
    · rintro ⟨_, _, hget, h⟩
      cases hget
      obtain ⟨e, _, hsome, h⟩ := (bind_ok).mp h
      obtain ⟨he, rfl⟩ := (orFail_ok).mp hsome
      obtain ⟨_, _, hrecord, h⟩ := (bind_ok).mp h
      obtain rfl := (hask e _).mp hrecord
      exact ⟨e, he, h⟩
    · rintro ⟨e, he, h⟩
      exact ⟨st, st, rfl, (bind_ok).mpr ⟨e, st, (orFail_ok).mpr ⟨he, rfl⟩,
        (bind_ok).mpr ⟨(), _, (hask e _).mpr rfl, h⟩⟩⟩
  rw [hrun]
  constructor
  · rintro ⟨e, he, h⟩
    obtain ⟨n, log, hafter, hreplies, hbudget, rfl⟩ :=
      (hf e ⟨st.visited, st.log ++ [entry e]⟩ hst b st').mp h
    refine ⟨n, entry e :: log, ⟨e, log, rfl, hafter⟩, ⟨(hreply _ e).mpr he, hreplies⟩, hbudget, ?_⟩
    rw [List.append_assoc, List.singleton_append]
  · rintro ⟨n, _, ⟨e, log, rfl, hafter⟩, ⟨he, hreplies⟩, hbudget, rfl⟩
    refine ⟨e, (hreply _ e).mp he, (hf e ⟨st.visited, st.log ++ [entry e]⟩ hst b _).mpr
      ⟨n, log, hafter, hreplies, hbudget, ?_⟩⟩
    rw [List.append_assoc, List.singleton_append]

end Denotes

end Metered

end Lib
