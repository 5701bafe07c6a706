import Fusen.Lib.Assoc
import Fusen.Lib.Text
import Fusen.Lib.Threads
import Fusen.Runtime.Sync

/-!
# The endpoint bulkhead (`endpoint_bulkhead`, `AttemptTerminal::call`)

An attempt takes a permit of its endpoint's semaphore before it encodes and sends
its request.  The semaphores sit in a map of bounded size, and a lookup for an
endpoint that is not in a full map first drops an entry, whichever the hash map
lists first.  A dropped semaphore lives on in the attempts that have it, but the
next lookup of its endpoint makes a new one: `bulkhead_bound` holds as long as no
dropped semaphore was in use, and `bulkhead_exceeded` is what happens otherwise.
-/

namespace Fusen.Client

open Lib Fusen.Runtime

/-! ## The map of semaphores -/

/-- A semaphore is known by its number in `semaphores`, as an `Arc` by its address. -/
structure Bulkheads where
  maxEndpointEntries : Nat
  maxInFlightPerEndpoint : Nat
  semaphores : List Semaphore
  entries : List (Text × Nat)

namespace Bulkheads

/-- The entry a lookup of the endpoint drops: `pick` is the one the map lists first. -/
def evicted (s : Bulkheads) (endpoint : Text) (pick : Nat) : Option Text :=
  if s.maxEndpointEntries ≤ s.entries.length ∧ Assoc.get s.entries endpoint = none then
    (s.entries[pick % s.entries.length]?).map Prod.fst
  else none

/-- The entries after the eviction. -/
def kept (s : Bulkheads) (endpoint : Text) (pick : Nat) : List (Text × Nat) :=
  match s.evicted endpoint pick with
  | some key => Assoc.remove key s.entries
  | none => s.entries

/-- `endpoint_bulkhead`: no semaphore where `Semaphore::new` panics. -/
def endpointBulkhead (s : Bulkheads) (endpoint : Text) (pick : Nat) : Option Nat × Bulkheads :=
  let entries := s.kept endpoint pick
  match Assoc.get entries endpoint with
  | some id => (some id, { s with entries })
  | none =>
    if h : s.maxInFlightPerEndpoint ≤ MAX_PERMITS then
      (some s.semaphores.length,
        { s with
          semaphores := s.semaphores ++ [.new ⟨s.maxInFlightPerEndpoint, h⟩]
          entries := Assoc.upsert endpoint (fun _ => s.semaphores.length) entries })
    else (none, { s with entries })

end Bulkheads

/-! ## Attempts -/

inductive AttemptPhase where
  | starting
  /-- It has the semaphore and has not tried it yet. -/
  | looked (id : Nat)
  /-- It has the permit and encodes its request. -/
  | admitted (id : Nat)
  /-- Its request is on the wire. -/
  | sent (id : Nat)
  | ended
  deriving DecidableEq

structure Attempt where
  endpoint : Text
  phase : AttemptPhase
  deriving DecidableEq

/-- What decides the next step of an attempt: the order of the hash map, and whether
the request can be encoded.  A request on the wire ends with an answer, a failure, at
the deadline or when the call is dropped. -/
structure AttemptChoice where
  pick : Nat
  encoded : Bool

def Attempt.next (s : Bulkheads) (t : Attempt) (c : AttemptChoice) : Option (Bulkheads × Attempt) :=
  match t.phase with
  | .starting =>
    match s.endpointBulkhead t.endpoint c.pick with
    | (some id, s) => some (s, { t with phase := .looked id })
    | (none, s) => some (s, { t with phase := .ended })
  | .looked id =>
    match (s.semaphores[id]?).bind Semaphore.tryAcquire with
    | some semaphore =>
      some ({ s with semaphores := s.semaphores.set id semaphore }, { t with phase := .admitted id })
    | none => some (s, { t with phase := .ended })
  | .admitted id =>
    if c.encoded then some (s, { t with phase := .sent id })
    else some ({ s with semaphores := s.semaphores.modify id .release }, { t with phase := .ended })
  | .sent id =>
    some ({ s with semaphores := s.semaphores.modify id .release }, { t with phase := .ended })
  | .ended => none

/-- Any number of attempts of one client runtime, each to some endpoint. -/
def attempts (maxEndpointEntries maxInFlightPerEndpoint : Nat) :
    Threads Bulkheads Attempt Text AttemptChoice where
  shared := ⟨maxEndpointEntries, maxInFlightPerEndpoint, [], []⟩
  start endpoint := ⟨endpoint, .starting⟩
  next := Attempt.next

/-! ## What an attempt has -/

namespace Attempt

/-- The attempt has the semaphore. -/
def Uses (t : Attempt) (id : Nat) : Prop :=
  t.phase = .looked id ∨ t.phase = .admitted id ∨ t.phase = .sent id

/-- The permits of the semaphore the attempt holds. -/
def holds (id : Nat) (t : Attempt) : Nat :=
  if t.phase = .admitted id ∨ t.phase = .sent id then 1 else 0

/-- Whether the attempt is in flight to the endpoint: from its permit to its end. -/
def inFlight (endpoint : Text) (t : Attempt) : Nat :=
  match t.phase with
  | .admitted _ | .sent _ => if t.endpoint = endpoint then 1 else 0
  | .starting | .looked _ | .ended => 0

variable {t : Attempt} {id : Nat} {endpoint : Text}

@[simp] theorem holds_starting : Attempt.holds id ⟨endpoint, .starting⟩ = 0 := by simp [holds]

@[simp] theorem holds_looked (id' : Nat) : Attempt.holds id ⟨endpoint, .looked id'⟩ = 0 := by
  simp [holds]

@[simp] theorem holds_admitted (id' : Nat) :
    Attempt.holds id ⟨endpoint, .admitted id'⟩ = if id' = id then 1 else 0 := by
  simp [holds]

@[simp] theorem holds_sent (id' : Nat) :
    Attempt.holds id ⟨endpoint, .sent id'⟩ = if id' = id then 1 else 0 := by
  simp [holds]

@[simp] theorem holds_ended : Attempt.holds id ⟨endpoint, .ended⟩ = 0 := by simp [holds]

theorem uses_of_holds (h : 0 < t.holds id) : t.Uses id := by
  unfold holds at h
  split at h
  · rename_i hphase
    exact .inr hphase
  · omega

/-- An attempt in flight holds a permit of some semaphore. -/
theorem inFlight_le_holds (h : ∀ id', t.endpoint = endpoint → t.Uses id' → id' = id) :
    t.inFlight endpoint ≤ t.holds id := by
  unfold inFlight holds
  split
  · rename_i id' hphase
    split
    · rename_i he
      obtain rfl := h id' he (.inr (.inl hphase))
      simp [hphase]
    · exact Nat.zero_le _
  · rename_i id' hphase
    split
    · rename_i he
      obtain rfl := h id' he (.inr (.inr hphase))
      simp [hphase]
    · exact Nat.zero_le _
  all_goals exact Nat.zero_le _

end Attempt

/-! ## What a step does -/

/-- The steps of an attempt to `endpoint`. -/
inductive AttemptStep (s : Bulkheads) (endpoint : Text) (pick : Nat) :
    AttemptPhase → Bulkheads → AttemptPhase → Prop
  | cached {id} (hget : Assoc.get (s.kept endpoint pick) endpoint = some id) :
      AttemptStep s endpoint pick .starting { s with entries := s.kept endpoint pick } (.looked id)
  | created (hget : Assoc.get (s.kept endpoint pick) endpoint = none)
      (hmax : s.maxInFlightPerEndpoint ≤ MAX_PERMITS) :
      AttemptStep s endpoint pick .starting
        { s with
          semaphores := s.semaphores ++ [.new ⟨s.maxInFlightPerEndpoint, hmax⟩]
          entries := Assoc.upsert endpoint (fun _ => s.semaphores.length) (s.kept endpoint pick) }
        (.looked s.semaphores.length)
  | panicked (hget : Assoc.get (s.kept endpoint pick) endpoint = none) :
      AttemptStep s endpoint pick .starting { s with entries := s.kept endpoint pick } .ended
  | admitted {id semaphore semaphore'} (hget : s.semaphores[id]? = some semaphore)
      (hacq : semaphore.tryAcquire = some semaphore') :
      AttemptStep s endpoint pick (.looked id)
        { s with semaphores := s.semaphores.set id semaphore' } (.admitted id)
  | overloaded {id} : AttemptStep s endpoint pick (.looked id) s .ended
  | sent {id} : AttemptStep s endpoint pick (.admitted id) s (.sent id)
  | finished {id phase} (hphase : phase = .admitted id ∨ phase = .sent id) :
      AttemptStep s endpoint pick phase
        { s with semaphores := s.semaphores.modify id .release } .ended

theorem attemptStep_of_next {s s' : Bulkheads} {t t' : Attempt} {c : AttemptChoice}
    (h : t.next s c = some (s', t')) :
    t'.endpoint = t.endpoint ∧ AttemptStep s t.endpoint c.pick t.phase s' t'.phase := by
  obtain ⟨endpoint, phase⟩ := t
  cases phase with
  | starting =>
    simp only [Attempt.next, Bulkheads.endpointBulkhead] at h
    cases hget : Assoc.get (s.kept endpoint c.pick) endpoint with
    | some id =>
      simp only [hget] at h
      cases h
      exact ⟨rfl, .cached hget⟩
    | none =>
      simp only [hget] at h
      by_cases hmax : s.maxInFlightPerEndpoint ≤ MAX_PERMITS
      · rw [dif_pos hmax] at h
        cases h
        exact ⟨rfl, .created hget hmax⟩
      · rw [dif_neg hmax] at h
        cases h
        exact ⟨rfl, .panicked hget⟩
  | looked id =>
    simp only [Attempt.next] at h
    split at h
    · rename_i semaphore' hacq
      obtain ⟨semaphore, hget, hacq⟩ := Option.bind_eq_some_iff.mp hacq
      cases h
      exact ⟨rfl, .admitted hget hacq⟩
    · cases h
      exact ⟨rfl, .overloaded⟩
  | admitted id =>
    simp only [Attempt.next] at h
    split at h
    · cases h
      exact ⟨rfl, .sent⟩
    · cases h
      exact ⟨rfl, .finished (.inl rfl)⟩
  | sent id =>
    cases h
    exact ⟨rfl, .finished (.inr rfl)⟩
  | ended => cases h

/-- A lookup keeps the entries of every endpoint but the one it evicts. -/
theorem Bulkheads.get_kept {s : Bulkheads} {endpoint e : Text} {pick : Nat}
    (h : s.evicted endpoint pick ≠ some e) :
    Assoc.get (s.kept endpoint pick) e = Assoc.get s.entries e := by
  unfold Bulkheads.kept
  split
  · rename_i key hkey
    rw [Assoc.get_remove, if_neg]
    rintro rfl
    exact h hkey
  · rfl

theorem Bulkheads.get_of_get_kept {s : Bulkheads} {endpoint e : Text} {pick id : Nat}
    (h : Assoc.get (s.kept endpoint pick) e = some id) : Assoc.get s.entries e = some id := by
  unfold Bulkheads.kept at h
  split at h
  · rw [Assoc.get_remove] at h
    split at h
    · cases h
    · exact h
  · exact h

/-! ## The bound -/

/-- The pool as one endpoint sees it: all its attempts share the cached semaphore. -/
structure BulkheadInv (limit : Nat) (e : Text) (p : Pool Bulkheads Attempt) : Prop where
  config : p.shared.maxInFlightPerEndpoint = limit
  permits : ∀ (id : Nat) (semaphore : Semaphore), p.shared.semaphores[id]? = some semaphore →
    semaphore.available + total (Attempt.holds id) p.threads = limit
  alloc : ∀ t ∈ p.threads, ∀ id, t.Uses id → id < p.shared.semaphores.length
  entries : ∀ endpoint id, Assoc.get p.shared.entries endpoint = some id →
    id < p.shared.semaphores.length
  cached : ∀ t ∈ p.threads, t.endpoint = e → ∀ id, t.Uses id →
    Assoc.get p.shared.entries e = some id

namespace BulkheadInv

open Attempt

variable {limit : Nat} {e : Text} {p : Pool Bulkheads Attempt}

/-- No more permits of a semaphore are held than the limit. -/
theorem holds_le (h : BulkheadInv limit e p) (id : Nat) :
    total (Attempt.holds id) p.threads ≤ limit := by
  cases hget : p.shared.semaphores[id]? with
  | some semaphore =>
    have := h.permits id semaphore hget
    omega
  | none =>
    have hzero : total (Attempt.holds id) p.threads = 0 := by
      rw [total_eq_zero_iff]
      intro t ht
      by_contra hpos
      have := h.alloc t ht id (Attempt.uses_of_holds (Nat.pos_of_ne_zero hpos))
      rw [List.getElem?_eq_none_iff] at hget
      omega
    omega

theorem inFlight_le (h : BulkheadInv limit e p) :
    total (Attempt.inFlight e) p.threads ≤ limit := by
  refine le_trans (total_le_total fun t ht => ?_) (h.holds_le
    ((Assoc.get p.shared.entries e).getD 0))
  apply Attempt.inFlight_le_holds
  intro id he huses
  rw [h.cached t ht he id huses]
  rfl

theorem spawn (h : BulkheadInv limit e p) (endpoint : Text) :
    BulkheadInv limit e ⟨p.shared, p.threads ++ [⟨endpoint, .starting⟩]⟩ := by
  have hnot (id : Nat) : ¬ Attempt.Uses ⟨endpoint, .starting⟩ id := by simp [Attempt.Uses]
  refine ⟨h.config, ?_, ?_, h.entries, ?_⟩
  · intro id semaphore hget
    rw [total_concat]
    exact h.permits id semaphore hget
  · intro t ht id huses
    rcases List.mem_append.mp ht with ht | ht
    · exact h.alloc t ht id huses
    · rw [List.mem_singleton.mp ht] at huses
      exact absurd huses (hnot id)
  · intro t ht he id huses
    rcases List.mem_append.mp ht with ht | ht
    · exact h.cached t ht he id huses
    · rw [List.mem_singleton.mp ht] at huses
      exact absurd huses (hnot id)

variable {s' : Bulkheads} {i pick : Nat} {endpoint : Text} {phase phase' : AttemptPhase}

theorem permits_of_step (h : BulkheadInv limit e p) (hi : p.threads[i]? = some ⟨endpoint, phase⟩)
    (hs : AttemptStep p.shared endpoint pick phase s' phase') (id : Nat) (semaphore : Semaphore)
    (hget : s'.semaphores[id]? = some semaphore) :
    semaphore.available + total (Attempt.holds id) (p.threads.set i ⟨endpoint, phase'⟩) = limit := by
  have hset := total_set (Attempt.holds id) hi ⟨endpoint, phase'⟩
  cases hs with
  | cached =>
    have := h.permits id semaphore hget
    rw [holds_starting, holds_looked] at hset
    omega
  | created hnone hmax =>
    rw [holds_starting, holds_looked] at hset
    rcases getElem?_concat_iff.mp hget with hget | ⟨rfl, rfl⟩
    · have := h.permits id semaphore hget
      omega
    · -- nobody has the new semaphore yet
      have hzero : total (Attempt.holds p.shared.semaphores.length) p.threads = 0 := by
        rw [total_eq_zero_iff]
        intro t ht
        by_contra hpos
        exact absurd (h.alloc t ht _ (Attempt.uses_of_holds (Nat.pos_of_ne_zero hpos)))
          (Nat.lt_irrefl _)
      have := h.config
      show p.shared.maxInFlightPerEndpoint + _ = limit
      omega
  | panicked =>
    have := h.permits id semaphore hget
    rw [holds_starting, holds_ended] at hset
    omega
  | @admitted id' before after hbefore hacq =>
    have hfree := Semaphore.available_of_tryAcquire hacq
    rw [holds_looked, holds_admitted] at hset
    rcases (getElem?_set_iff hbefore).mp hget with ⟨rfl, rfl⟩ | ⟨hne, hget⟩
    · have := h.permits id before hbefore
      rw [if_pos rfl] at hset
      omega
    · have := h.permits id semaphore hget
      rw [if_neg (Ne.symm hne)] at hset
      omega
  | overloaded =>
    have := h.permits id semaphore hget
    rw [holds_looked, holds_ended] at hset
    omega
  | sent =>
    have := h.permits id semaphore hget
    rw [holds_admitted, holds_sent] at hset
    omega
  | @finished id' _ hphase =>
    have hwas : Attempt.holds id ⟨endpoint, phase⟩ = if id' = id then 1 else 0 := by
      rcases hphase with rfl | rfl
      · exact holds_admitted id'
      · exact holds_sent id'
    rw [hwas, holds_ended] at hset
    obtain ⟨before, hbefore, rfl⟩ : ∃ before, p.shared.semaphores[id]? = some before ∧
        semaphore = if id' = id then before.release else before := by
      rw [List.getElem?_modify] at hget
      obtain ⟨before, hbefore, rfl⟩ := Option.map_eq_some_iff.mp hget
      exact ⟨before, hbefore, by split <;> rfl⟩
    have := h.permits id before hbefore
    by_cases hid : id' = id
    · rw [if_pos hid, Semaphore.available_release]
      rw [if_pos hid] at hset
      omega
    · rw [if_neg hid]
      rw [if_neg hid] at hset
      omega

/-- What the next phase uses has a number, and is cached if it is of the endpoint. -/
theorem uses_of_step (h : BulkheadInv limit e p) (hi : p.threads[i]? = some ⟨endpoint, phase⟩)
    (hs : AttemptStep p.shared endpoint pick phase s' phase') {id : Nat}
    (huses : Attempt.Uses ⟨endpoint, phase'⟩ id) :
    id < s'.semaphores.length ∧ (endpoint = e → Assoc.get s'.entries e = some id) := by
  have hmem := List.mem_of_getElem? hi
  cases hs with
  | @cached id' hget =>
    obtain rfl : id' = id := by simpa [Uses] using huses
    refine ⟨h.entries endpoint _ (Bulkheads.get_of_get_kept hget), ?_⟩
    rintro rfl
    exact hget
  | created hnone hmax =>
    obtain rfl : p.shared.semaphores.length = id := by simpa [Uses] using huses
    refine ⟨by simp, ?_⟩
    rintro rfl
    show Assoc.get (Assoc.upsert endpoint _ _) endpoint = _
    rw [Assoc.get_upsert, if_pos rfl]
  | @admitted id' before after hbefore hacq =>
    obtain rfl : id' = id := by simpa [Uses] using huses
    have hold : Attempt.Uses ⟨endpoint, .looked id'⟩ id' := .inl rfl
    exact ⟨by simpa using h.alloc _ hmem _ hold, fun he => h.cached _ hmem he _ hold⟩
  | @sent id' =>
    obtain rfl : id' = id := by simpa [Uses] using huses
    have hold : Attempt.Uses ⟨endpoint, .admitted id'⟩ id' := .inr (.inl rfl)
    exact ⟨h.alloc _ hmem _ hold, fun he => h.cached _ hmem he _ hold⟩
  | panicked => simp [Uses] at huses
  | overloaded => simp [Uses] at huses
  | finished => simp [Uses] at huses

theorem length_le_of_step {s : Bulkheads} (hs : AttemptStep s endpoint pick phase s' phase') :
    s.semaphores.length ≤ s'.semaphores.length := by
  cases hs <;> simp

theorem entries_of_step (h : BulkheadInv limit e p)
    (hs : AttemptStep p.shared endpoint pick phase s' phase') (endpoint' : Text) (id : Nat)
    (hget : Assoc.get s'.entries endpoint' = some id) : id < s'.semaphores.length := by
  have hlen := length_le_of_step hs
  have hold (hget : Assoc.get p.shared.entries endpoint' = some id) : id < s'.semaphores.length :=
    Nat.lt_of_lt_of_le (h.entries _ _ hget) hlen
  cases hs with
  | cached => exact hold (Bulkheads.get_of_get_kept hget)
  | created hnone hmax =>
    change Assoc.get (Assoc.upsert endpoint _ _) endpoint' = _ at hget
    rw [Assoc.get_upsert] at hget
    split at hget
    · cases hget
      simp
    · exact hold (Bulkheads.get_of_get_kept hget)
  | panicked => exact hold (Bulkheads.get_of_get_kept hget)
  | admitted => exact hold hget
  | overloaded => exact hold hget
  | sent => exact hold hget
  | finished => exact hold hget

/-- The cached semaphore of the endpoint stays, unless the lookup evicts it. -/
theorem get_of_step {s : Bulkheads} (hs : AttemptStep s endpoint pick phase s' phase') {id : Nat}
    (hget : Assoc.get s.entries e = some id)
    (hev : phase = .starting → s.evicted endpoint pick ≠ some e) :
    Assoc.get s'.entries e = some id := by
  cases hs with
  | cached => exact (Bulkheads.get_kept (hev rfl)).trans hget
  | created hnone hmax =>
    show Assoc.get (Assoc.upsert endpoint _ _) e = _
    have hkept := (Bulkheads.get_kept (hev rfl)).trans hget
    rw [Assoc.get_upsert, if_neg, hkept]
    rintro rfl
    rw [hnone] at hkept
    cases hkept
  | panicked => exact (Bulkheads.get_kept (hev rfl)).trans hget
  | admitted => exact hget
  | overloaded => exact hget
  | sent => exact hget
  | finished => exact hget

end BulkheadInv

/-- The step evicts the semaphore of the endpoint while some attempt has it. -/
def EvictsInUse (e : Text) (p : Pool Bulkheads Attempt) : Event Text AttemptChoice → Prop
  | .spawn _ => False
  | .act i c => ∃ t ∈ p.threads[i]?, t.phase = .starting ∧
      p.shared.evicted t.endpoint c.pick = some e ∧
      ∃ id ∈ Assoc.get p.shared.entries e, ∃ u ∈ p.threads, u.Uses id

instance (t : Attempt) (id : Nat) : Decidable (t.Uses id) :=
  inferInstanceAs (Decidable (_ ∨ _ ∨ _))

instance (e : Text) (p : Pool Bulkheads Attempt) (ev : Event Text AttemptChoice) :
    Decidable (EvictsInUse e p ev) :=
  match ev with
  | .spawn _ => inferInstanceAs (Decidable False)
  | .act _ _ => inferInstanceAs (Decidable (∃ t ∈ _, _ ∧ _ ∧ ∃ id ∈ _, ∃ u ∈ _, _))

namespace BulkheadInv

variable {limit : Nat} {e : Text} {p : Pool Bulkheads Attempt}

theorem act (h : BulkheadInv limit e p) {i : Nat} {c : AttemptChoice} {t t' : Attempt}
    {s' : Bulkheads} (hi : p.threads[i]? = some t) (hn : t.next p.shared c = some (s', t'))
    (hev : ¬ EvictsInUse e p (.act i c)) : BulkheadInv limit e ⟨s', p.threads.set i t'⟩ := by
  obtain ⟨endpoint, phase⟩ := t
  obtain ⟨endpoint', phase'⟩ := t'
  obtain ⟨he, hs⟩ := attemptStep_of_next hn
  obtain rfl : endpoint' = endpoint := he
  refine ⟨?_, h.permits_of_step hi hs, ?_, h.entries_of_step hs, ?_⟩
  · rw [← h.config]
    cases hs <;> rfl
  · intro t ht id huses
    rcases (mem_set_iff hi).mp ht with rfl | ⟨j, -, hj⟩
    · exact (h.uses_of_step hi hs huses).1
    · exact Nat.lt_of_lt_of_le (h.alloc t (List.mem_of_getElem? hj) id huses)
        (length_le_of_step hs)
  · intro t ht hte id huses
    rcases (mem_set_iff hi).mp ht with rfl | ⟨j, -, hj⟩
    · exact (h.uses_of_step hi hs huses).2 hte
    · have ht := List.mem_of_getElem? hj
      have hget := h.cached t ht hte id huses
      refine get_of_step hs hget fun hphase hevicts => hev ?_
      exact ⟨_, hi, hphase, hevicts, id, hget, t, ht, huses⟩

theorem init (maxEndpointEntries limit : Nat) (e : Text) :
    BulkheadInv limit e ⟨⟨maxEndpointEntries, limit, [], []⟩, []⟩ := by
  refine ⟨rfl, ?_, ?_, ?_, ?_⟩
  · intro id semaphore hget
    simp at hget
  · intro t ht
    cases ht
  · intro endpoint id hget
    cases hget
  · intro t ht
    cases ht

end BulkheadInv

section Runs

variable {maxEndpointEntries maxInFlightPerEndpoint : Nat}

theorem bulkheadInv_run {e : Text} (es : List (Event Text AttemptChoice))
    (h : ∀ before ev after, es = before ++ ev :: after →
      ¬ EvictsInUse e ((attempts maxEndpointEntries maxInFlightPerEndpoint).run before) ev) :
    BulkheadInv maxInFlightPerEndpoint e
      ((attempts maxEndpointEntries maxInFlightPerEndpoint).run es) := by
  exact (attempts maxEndpointEntries maxInFlightPerEndpoint).invariant_of_steps
    (C := fun p ev => ¬ EvictsInUse e p ev) (.init _ _ _) (fun _ endpoint h => h.spawn endpoint)
    (fun _ _ _ _ _ _ h hev hi hn => h.act hi hn hev) es h

/-- **The bulkhead bounds the attempts in flight to an endpoint**, whatever runs at the
same time, as long as no lookup evicts the endpoint's semaphore while an attempt has
it. -/
theorem bulkhead_bound (maxEndpointEntries maxInFlightPerEndpoint : Nat) (e : Text)
    (es : List (Event Text AttemptChoice))
    (h : ∀ before ev after, es = before ++ ev :: after →
      ¬ EvictsInUse e ((attempts maxEndpointEntries maxInFlightPerEndpoint).run before) ev) :
    total (Attempt.inFlight e) ((attempts maxEndpointEntries maxInFlightPerEndpoint).run es).threads
      ≤ maxInFlightPerEndpoint :=
  (bulkheadInv_run es h).inFlight_le

end Runs

def endpointA : Text := "http://a".toList

def endpointB : Text := "http://b".toList

/-- An attempt looks up its semaphore, gets a permit and sends its request. -/
def sends (i : Nat) : List (Event Text AttemptChoice) :=
  [.act i ⟨0, true⟩, .act i ⟨0, true⟩, .act i ⟨0, true⟩]

/-- A second attempt to the same endpoint is refused, a third one comes after the first. -/
theorem bulkhead_bound_refused :
    total (Attempt.inFlight endpointA) ((attempts 1 1).run ([.spawn endpointA] ++ sends 0 ++
      [.spawn endpointA] ++ sends 1 ++ [.act 0 ⟨0, true⟩, .spawn endpointA] ++ sends 2)).threads
      ≤ 1 :=
  bulkhead_bound 1 1 endpointA _ (forall_split_iff.mpr (by decide +kernel))

/-- In a map of one entry the lookup for another endpoint lets a second attempt in. -/
theorem bulkhead_exceeded :
    ((attempts 1 1).run ([.spawn endpointA] ++ sends 0 ++ [.spawn endpointB, .act 1 ⟨0, true⟩,
      .spawn endpointA] ++ sends 2)).threads =
        [⟨endpointA, .sent 0⟩, ⟨endpointB, .looked 1⟩, ⟨endpointA, .sent 2⟩] ∧
    ¬ ∀ es, total (Attempt.inFlight endpointA) ((attempts 1 1).run es).threads ≤ 1 := by
  have hrun : ((attempts 1 1).run ([.spawn endpointA] ++ sends 0 ++ [.spawn endpointB,
      .act 1 ⟨0, true⟩, .spawn endpointA] ++ sends 2)).threads =
        [⟨endpointA, .sent 0⟩, ⟨endpointB, .looked 1⟩, ⟨endpointA, .sent 2⟩] := by
    decide +kernel
  refine ⟨hrun, fun h => ?_⟩
  have hle := h ([.spawn endpointA] ++ sends 0 ++ [.spawn endpointB, .act 1 ⟨0, true⟩,
    .spawn endpointA] ++ sends 2)
  rw [hrun] at hle
  exact absurd hle (by decide)

end Fusen.Client
