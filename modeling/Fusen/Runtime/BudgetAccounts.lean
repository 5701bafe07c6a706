import Mathlib.Data.List.Count
import Fusen.Runtime.Budget

/-!
# The conservation law of byte budgets

`Effect` lists what one step of a task can do to the ledger, and `Accounts` is
what every step keeps: the used bytes of a budget are the sizes of its live
permits and of the growths under way.  It holds in every interleaving of any
programs (`accounts_run`).
-/

namespace Fusen.Runtime

open Lib

/-! ## What a step can do -/

/-- The task is neither between grant and record nor releasing a permit. -/
def Phase.Idle {α : Type} : Phase α → Prop
  | .recording .. | .releasing .. => False
  | _ => True

section Step

variable {α : Type} {limits : Nat → Fin Usize.size} {L L' : Ledger} {t t' : Task α}
  {e : TaskAction}

theorem fits_eq_some_iff {b n current next : Nat} :
    Ledger.fits limits b n current = some next ↔
      current + n < Usize.size ∧ next = current + n ∧ next ≤ limits b := by
  unfold Ledger.fits
  split
  · rename_i h
    simp only [reduceCtorEq, false_iff, not_and]
    intro hlt
    rw [Usize.checkedAdd_eq_some_iff.mpr ⟨hlt, rfl⟩] at h
    cases h
  · rename_i sum h
    obtain ⟨hlt, rfl⟩ := Usize.checkedAdd_eq_some_iff.mp h
    split
    · rename_i hgt
      simp only [reduceCtorEq, false_iff, not_and]
      rintro - rfl
      omega
    · rename_i hle
      simp only [Option.some.injEq]
      constructor
      · rintro rfl
        exact ⟨hlt, rfl, by omega⟩
      · rintro ⟨-, rfl, -⟩
        rfl

theorem permit?_eq_some_iff {held : List Nat} {id : Nat} {q : Permit} :
    Task.permit? L held id = some q ↔ id ∈ held ∧ L.permits[id]? = some q := by
  unfold Task.permit?
  split <;> simp_all

/-- The permits a task names exist, and the one it grows belongs to the budget it
adds to. -/
def Task.Knows (L : Ledger) (t : Task α) : Prop :=
  (∀ id ∈ t.held, id < L.permits.length) ∧
    match t.phase with
    | .adding b _ _ (.grow id _) | .recording b id _ _ =>
      id ∈ t.held ∧ ∃ q, L.permits[id]? = some q ∧ q.budget = b
    | .releasing id _ => id < L.permits.length
    | _ => True

/-- The effects of one step. -/
inductive Effect (limits : Nat → Fin Usize.size) (L : Ledger) (t : Task α) :
    Ledger → Task α → Prop
  | quiet {phase : Phase α} (idle : t.phase.Idle) (idle' : phase.Idle)
      (knows : t.Knows L → Task.Knows L ⟨t.held, phase⟩) : Effect limits L t L ⟨t.held, phase⟩
  | reserve {b n next : Nat} {k : Prog α} (idle : t.phase.Idle)
      (fits : Ledger.fits limits b n (L.used b) = some next) :
      Effect limits L t ((L.setUsed b next).addPermit b n) ⟨L.permits.length :: t.held, .ready k⟩
  | grant {b id n next current : Nat} {f : Bool → Prog α} {k : Prog α}
      (adding : t.phase = .adding b n current (.grow id f))
      (fits : Ledger.fits limits b n (L.used b) = some next) :
      Effect limits L t (L.setUsed b next) ⟨t.held, .recording b id n k⟩
  | record {b id n : Nat} {k : Prog α} {q : Permit} (recording : t.phase = .recording b id n k)
      (permit : L.permits[id]? = some q) :
      Effect limits L t (L.record id q n) ⟨t.held, .ready k⟩
  | clone {id : Nat} {k : Prog α} {q : Permit} (idle : t.phase.Idle)
      (permit : L.permits[id]? = some q) (mem : id ∈ t.held) :
      Effect limits L t (L.setPermit id { q with holders := q.holders + 1 }) ⟨id :: t.held, .ready k⟩
  | drop {id : Nat} {k : Prog α} {q : Permit} (idle : t.phase.Idle)
      (permit : L.permits[id]? = some q) (mem : id ∈ t.held) (shared : q.holders ≠ 1) :
      Effect limits L t (L.setPermit id { q with holders := q.holders - 1 })
        ⟨t.held.erase id, .ready k⟩
  | dropLast {id : Nat} {k : Prog α} {q : Permit} (idle : t.phase.Idle)
      (permit : L.permits[id]? = some q) (mem : id ∈ t.held) (last : q.holders = 1) :
      Effect limits L t (L.setPermit id { q with holders := 0 })
        ⟨t.held.erase id, .releasing id k⟩
  | release {id : Nat} {k : Prog α} {q : Permit} (releasing : t.phase = .releasing id k)
      (permit : L.permits[id]? = some q) :
      Effect limits L t (L.release id q) ⟨t.held, .ready k⟩
  | send {id : Nat} {k : Prog α} (idle : t.phase.Idle) (mem : id ∈ t.held) :
      Effect limits L t { L with transit := id :: L.transit } ⟨t.held.erase id, .ready k⟩
  | receive {id : Nat} {k : Prog α} (idle : t.phase.Idle) (mem : id ∈ L.transit) :
      Effect limits L t { L with transit := L.transit.erase id } ⟨id :: t.held, .ready k⟩

theorem effect_of_stepAt {held : List Nat} {p : Prog α}
    (h : Task.stepAt L held p e = some (L', t')) : Effect limits L ⟨held, .ready p⟩ L' t' := by
  cases p <;> cases e <;> simp only [Task.stepAt, reduceCtorEq, Option.map_eq_some_iff] at h
  case tryReserve.run =>
    cases h
    exact .quiet trivial trivial fun hk => ⟨hk.1, trivial⟩
  case grow.run id n k =>
    obtain ⟨q, hq, h⟩ := h
    cases h
    obtain ⟨hmem, hq⟩ := permit?_eq_some_iff.mp hq
    exact .quiet trivial trivial fun hk => ⟨hk.1, hmem, q, hq, rfl⟩
  case bytes.run | belongsTo.run =>
    obtain ⟨q, -, h⟩ := h
    cases h
    exact .quiet trivial trivial fun hk => ⟨hk.1, trivial⟩
  case clone.run =>
    obtain ⟨q, hq, h⟩ := h
    cases h
    obtain ⟨hmem, hq⟩ := permit?_eq_some_iff.mp hq
    exact .clone trivial hq hmem
  case drop.run =>
    obtain ⟨q, hq, h⟩ := h
    obtain ⟨hmem, hq⟩ := permit?_eq_some_iff.mp hq
    by_cases hlast : q.holders = 1
    · rw [if_pos hlast, hlast] at h
      cases h
      exact .dropLast trivial hq hmem hlast
    · rw [if_neg hlast] at h
      cases h
      exact .drop trivial hq hmem hlast
  case send.run =>
    obtain ⟨q, hq, h⟩ := h
    cases h
    exact .send trivial (permit?_eq_some_iff.mp hq).1
  case receive.pick =>
    split at h
    · rename_i hmem
      cases h
      exact .receive trivial hmem
    · cases h

theorem effect_of_exchange {held : List Nat} {b n current : Nat} {goal : Goal α} {spurious : Bool}
    (h : Task.exchange limits L held b n current goal spurious = some (L', t')) :
    Effect limits L ⟨held, .adding b n current goal⟩ L' t' := by
  unfold Task.exchange at h
  split at h
  · cases h
    exact .quiet trivial trivial fun hk => ⟨hk.1, trivial⟩
  · rename_i next hfits
    split at h
    · rename_i hcur
      obtain ⟨rfl, -⟩ := hcur
      cases goal with
      | reserve k =>
        cases h
        exact .reserve trivial hfits
      | grow id k =>
        cases h
        exact .grant rfl hfits
    · cases h
      refine .quiet trivial trivial fun hk => ?_
      cases goal <;> exact hk

/-- **What a step can do.** -/
theorem effect_of_next (h : Task.next limits L t e = some (L', t')) : Effect limits L t L' t' := by
  obtain ⟨held, phase⟩ := t
  cases phase with
  | ready p => exact effect_of_stepAt (by cases p <;> exact h)
  | adding b n current goal =>
    cases e with
    | run => exact effect_of_exchange h
    | fail => exact effect_of_exchange h
    | pick id => cases h
  | recording b id n k =>
    cases e <;> simp only [Task.next, reduceCtorEq, Option.map_eq_some_iff] at h
    obtain ⟨q, hq, h⟩ := h
    cases h
    exact .record rfl hq
  | releasing id k =>
    cases e <;> simp only [Task.next, reduceCtorEq, Option.map_eq_some_iff] at h
    obtain ⟨q, hq, h⟩ := h
    cases h
    exact .release rfl hq

end Step

/-! ## Conservation -/

/-- The bytes a permit has of the budget `b`. -/
def Permit.counted (b : Nat) (q : Permit) : Nat :=
  if q.live = true ∧ q.budget = b then q.bytes else 0

namespace Task

variable {α : Type}

/-- The bytes of `b` that a growth has taken and not yet written into its permit. -/
def granted (b : Nat) (t : Task α) : Nat :=
  match t.phase with
  | .recording b' _ n _ => if b' = b then n else 0
  | _ => 0

/-- The task is about to release the permit `id`. -/
def releases (id : Nat) (t : Task α) : Nat :=
  match t.phase with
  | .releasing id' _ => if id' = id then 1 else 0
  | _ => 0

/-- How often the task holds the permit `id`. -/
def holds (id : Nat) (t : Task α) : Nat := t.held.count id

theorem granted_of_idle {t : Task α} (h : t.phase.Idle) (b : Nat) : t.granted b = 0 := by
  obtain ⟨held, phase⟩ := t
  cases phase <;> first | rfl | exact h.elim

theorem releases_of_idle {t : Task α} (h : t.phase.Idle) (id : Nat) : t.releases id = 0 := by
  obtain ⟨held, phase⟩ := t
  cases phase <;> first | rfl | exact h.elim

end Task

/-- **The conservation law.**  The used bytes of each budget are the sizes of its
live permits and the growths under way, within the limit; a permit has as many
holders as tasks hold it or messages carry it, and it is live as long as it has
one or is being released. -/
structure Accounts {α : Type} (limits : Nat → Fin Usize.size) (L : Ledger) (ts : List (Task α)) :
    Prop where
  used : ∀ b, L.used b = total (Permit.counted b) L.permits + total (Task.granted b) ts
  le : ∀ b, L.used b ≤ limits b
  holders : ∀ (id : Nat) (q : Permit), L.permits[id]? = some q →
    q.holders = total (Task.holds id) ts + L.transit.count id
  live : ∀ (id : Nat) (q : Permit), L.permits[id]? = some q →
    (if q.live then 1 else 0) = min q.holders 1 + total (Task.releases id) ts
  knows : ∀ t ∈ ts, t.Knows L
  transit : ∀ id ∈ L.transit, id < L.permits.length

section Conservation

variable {α : Type} {limits : Nat → Fin Usize.size} {L L' : Ledger} {ts : List (Task α)}
  {t t' : Task α} {e : TaskAction} {i : Nat}

/-- Permits stay, with their budgets. -/
def Ledger.Extends (L L' : Ledger) : Prop :=
  ∀ (id : Nat) (q : Permit), L.permits[id]? = some q →
    ∃ q' : Permit, L'.permits[id]? = some q' ∧ q'.budget = q.budget

theorem Ledger.Extends.length_le (h : L.Extends L') : L.permits.length ≤ L'.permits.length := by
  by_contra hlt
  have hlast : L'.permits.length < L.permits.length := by omega
  obtain ⟨q', hq', -⟩ := h _ _ (List.getElem?_eq_getElem hlast)
  rw [List.getElem?_eq_none (Nat.le_refl _)] at hq'
  cases hq'

theorem Task.Knows.mono (h : t.Knows L) (hx : L.Extends L') : t.Knows L' := by
  have hlen := hx.length_le
  refine ⟨fun id hid => Nat.lt_of_lt_of_le (h.1 id hid) hlen, ?_⟩
  have h2 := h.2
  revert h2
  split
  · rintro ⟨hmem, q, hq, rfl⟩
    exact ⟨hmem, hx _ q hq⟩
  · rintro ⟨hmem, q, hq, rfl⟩
    exact ⟨hmem, hx _ q hq⟩
  · intro hid
    exact Nat.lt_of_lt_of_le hid hlen
  · exact id

theorem Ledger.extends_setPermit {id : Nat} {q q' : Permit} (hq : L.permits[id]? = some q)
    (hb : q'.budget = q.budget) : L.Extends (L.setPermit id q') := by
  intro j r hr
  by_cases hj : j = id
  · subst hj
    obtain rfl := Option.some.inj (hq.symm.trans hr)
    exact ⟨q', (getElem?_set_iff hq).mpr (.inl ⟨rfl, rfl⟩), hb⟩
  · exact ⟨r, (getElem?_set_iff hq).mpr (.inr ⟨hj, hr⟩), rfl⟩

theorem Effect.extends (h : Effect limits L t L' t') : L.Extends L' := by
  have hsame : L.Extends L := fun _ q hq => ⟨q, hq, rfl⟩
  cases h with
  | quiet => exact hsame
  | reserve => exact fun id q hq => ⟨q, getElem?_concat_iff.mpr (.inl hq), rfl⟩
  | grant => exact hsame
  | record _ hq => exact Ledger.extends_setPermit hq rfl
  | clone _ hq _ => exact Ledger.extends_setPermit hq rfl
  | drop _ hq _ _ => exact Ledger.extends_setPermit hq rfl
  | dropLast _ hq _ _ => exact Ledger.extends_setPermit hq rfl
  | release _ hq => exact Ledger.extends_setPermit (L := L.setUsed _ _) hq rfl
  | send => exact hsame
  | receive => exact hsame

theorem Effect.knows (h : Effect limits L t L' t') (ht : t.Knows L)
    (htransit : ∀ id ∈ L.transit, id < L.permits.length) : t'.Knows L' := by
  have hx := h.extends
  have hlen := hx.length_le
  have hheld : ∀ id ∈ t.held, id < L'.permits.length := fun id hid =>
    Nat.lt_of_lt_of_le (ht.1 id hid) hlen
  cases h with
  | quiet _ _ hk => exact hk ht
  | reserve =>
    refine ⟨fun id hid => ?_, trivial⟩
    rcases List.mem_cons.mp hid with rfl | hid
    · simp [Ledger.addPermit, Ledger.setUsed]
    · exact hheld id hid
  | grant adding =>
    have h2 := ht.2
    rw [adding] at h2
    exact ⟨hheld, h2⟩
  | record => exact ⟨hheld, trivial⟩
  | clone _ hq hmem =>
    refine ⟨fun id hid => ?_, trivial⟩
    rcases List.mem_cons.mp hid with rfl | hid
    · exact hheld _ hmem
    · exact hheld id hid
  | drop => exact ⟨fun id hid => hheld id (List.mem_of_mem_erase hid), trivial⟩
  | dropLast _ hq hmem _ =>
    exact ⟨fun id hid => hheld id (List.mem_of_mem_erase hid), hheld _ hmem⟩
  | release => exact ⟨hheld, trivial⟩
  | send => exact ⟨fun id hid => hheld id (List.mem_of_mem_erase hid), trivial⟩
  | receive _ hmem =>
    refine ⟨fun id hid => ?_, trivial⟩
    rcases List.mem_cons.mp hid with rfl | hid
    · exact htransit _ hmem
    · exact hheld id hid

namespace Accounts

theorem holders_pos (h : Accounts limits L ts) (ht : t ∈ ts) {id : Nat} (hid : id ∈ t.held)
    {q : Permit} (hq : L.permits[id]? = some q) : 0 < q.holders := by
  have := le_total (w := Task.holds id) ht
  have : 0 < t.holds id := List.count_pos_iff.mpr hid
  have := h.holders id q hq
  omega

theorem live_of_pos (h : Accounts limits L ts) {id : Nat} {q : Permit}
    (hq : L.permits[id]? = some q) (hpos : 0 < q.holders) : q.live = true := by
  have := h.live id q hq
  by_contra hdead
  rw [if_neg hdead] at this
  omega

theorem live_of_releasing (h : Accounts limits L ts) (ht : t ∈ ts) {id : Nat} {k : Prog α}
    (hrel : t.phase = .releasing id k) {q : Permit} (hq : L.permits[id]? = some q) :
    q.live = true ∧ q.holders = 0 := by
  have hle := le_total (w := Task.releases id) ht
  have hone : t.releases id = 1 := by simp [Task.releases, hrel]
  have := h.live id q hq
  by_cases hlive : q.live = true
  · rw [if_pos hlive] at this
    exact ⟨hlive, by omega⟩
  · rw [if_neg hlive] at this
    omega

/-- A live permit is part of the used bytes. -/
theorem bytes_le (h : Accounts limits L ts) {id : Nat} {q : Permit}
    (hq : L.permits[id]? = some q) (hlive : q.live = true) : q.bytes ≤ L.used q.budget := by
  have hle := le_total (w := Permit.counted q.budget) (List.mem_of_getElem? hq)
  have hc : q.counted q.budget = q.bytes := if_pos ⟨hlive, rfl⟩
  have := h.used q.budget
  omega

theorem used_lt (h : Accounts limits L ts) (b : Nat) : L.used b < Usize.size :=
  Nat.lt_of_le_of_lt (h.le b) (limits b).isLt

theorem permit_of_growing (h : Accounts limits L ts) (ht : t ∈ ts) {b id n : Nat} {k : Prog α}
    (hrec : t.phase = .recording b id n k) {q : Permit} (hq : L.permits[id]? = some q) :
    q.live = true ∧ q.budget = b ∧ q.bytes + n < Usize.size := by
  have hk := (h.knows t ht).2
  rw [hrec] at hk
  obtain ⟨hmem, q', hq', hb⟩ := hk
  obtain rfl := Option.some.inj (hq.symm.trans hq')
  have hlive := h.live_of_pos hq (h.holders_pos ht hmem hq)
  refine ⟨hlive, hb, ?_⟩
  have hle := le_total (w := Permit.counted b) (List.mem_of_getElem? hq)
  have hc : q.counted b = q.bytes := if_pos ⟨hlive, hb⟩
  have hg := le_total (w := Task.granted b) ht
  have hgt : t.granted b = n := by simp [Task.granted, hrec]
  have := h.used b
  have := h.used_lt b
  omega

end Accounts

theorem granted_adding {b n current : Nat} {goal : Goal α} (h : t.phase = .adding b n current goal)
    (b' : Nat) : t.granted b' = 0 := by
  simp [Task.granted, h]

@[simp] theorem granted_ready (held : List Nat) (k : Prog α) (b : Nat) :
    Task.granted b ⟨held, .ready k⟩ = 0 := rfl

@[simp] theorem releases_ready (held : List Nat) (k : Prog α) (id : Nat) :
    Task.releases id ⟨held, .ready k⟩ = 0 := rfl

/-- A step that keeps the size, the budget and the life of a permit keeps the sizes. -/
theorem total_counted_setPermit {id : Nat} {q : Permit} (q' : Permit) (hq : L.permits[id]? = some q)
    (hb : q'.budget = q.budget) (hbytes : q'.bytes = q.bytes) (hlive : q'.live = q.live) (b : Nat) :
    total (Permit.counted b) (L.setPermit id q').permits = total (Permit.counted b) L.permits := by
  have hset := total_set (Permit.counted b) hq q'
  have hc : q'.counted b = q.counted b := by
    simp only [Permit.counted, hb, hbytes, hlive]
  show total (Permit.counted b) (L.permits.set id q') = _
  omega

theorem used_of_effect (h : Accounts limits L ts) (hi : ts[i]? = some t)
    (he : Effect limits L t L' t') (b : Nat) :
    L'.used b = total (Permit.counted b) L'.permits + total (Task.granted b) (ts.set i t') := by
  have hset := total_set (Task.granted b) hi t'
  have hused := h.used b
  have hmem := List.mem_of_getElem? hi
  cases he with
  | quiet idle idle' =>
    rw [Task.granted_of_idle idle, Task.granted_of_idle idle'] at hset
    omega
  | @reserve b' n next k idle fits =>
    obtain ⟨-, rfl, -⟩ := (fits_eq_some_iff).mp fits
    rw [Task.granted_of_idle idle, granted_ready] at hset
    simp only [Ledger.addPermit, Ledger.setUsed, total_concat, Permit.counted, true_and]
    by_cases hb : b = b'
    · subst hb
      rw [Function.update_self, if_pos rfl]
      omega
    · rw [Function.update_of_ne hb, if_neg (Ne.symm hb)]
      omega
  | @grant b' id n next current f k adding fits =>
    obtain ⟨-, rfl, -⟩ := (fits_eq_some_iff).mp fits
    rw [granted_adding adding] at hset
    simp only [Ledger.setUsed, Task.granted] at hset ⊢
    by_cases hb : b = b'
    · subst hb
      rw [if_pos rfl] at hset
      rw [Function.update_self]
      omega
    · rw [if_neg (Ne.symm hb)] at hset
      rw [Function.update_of_ne hb]
      omega
  | @record b' id n k q recording permit =>
    -- what the growth has taken moves into the size of its permit
    obtain ⟨hlive, rfl, hlt⟩ := h.permit_of_growing hmem recording permit
    have hp := total_set (Permit.counted b) permit { q with bytes := q.bytes + n }
    have hc : q.counted b = if q.budget = b then q.bytes else 0 := by
      simp only [Permit.counted, hlive, true_and]
    have hc' : Permit.counted b { q with bytes := q.bytes + n } =
        if q.budget = b then q.bytes + n else 0 := by
      simp only [Permit.counted, hlive, true_and]
    rw [hc, hc'] at hp
    simp only [Task.granted, recording] at hset
    simp only [Ledger.record, Usize.wrappingAdd_of_lt hlt, Ledger.setPermit]
    by_cases hb : q.budget = b
    · rw [if_pos hb] at hset
      rw [if_pos hb, if_pos hb] at hp
      omega
    · rw [if_neg hb] at hset
      rw [if_neg hb, if_neg hb] at hp
      omega
  | @clone id k q idle permit =>
    rw [Task.granted_of_idle idle, granted_ready] at hset
    have hp := total_counted_setPermit { q with holders := q.holders + 1 } permit rfl rfl
      rfl b
    show L.used b = _
    omega
  | @drop id k q idle permit =>
    rw [Task.granted_of_idle idle, granted_ready] at hset
    have hp := total_counted_setPermit { q with holders := q.holders - 1 } permit rfl rfl
      rfl b
    show L.used b = _
    omega
  | @dropLast id k q idle permit =>
    rw [Task.granted_of_idle idle] at hset
    have hp := total_counted_setPermit { q with holders := 0 } permit rfl rfl rfl b
    have : Task.granted b ⟨t.held.erase id, .releasing id k⟩ = 0 := rfl
    show L.used b = _
    omega
  | @release id k q releasing permit =>
    obtain ⟨hlive, -⟩ := h.live_of_releasing hmem releasing permit
    have hle := h.bytes_le permit hlive
    have hp := total_set (Permit.counted b) permit { q with live := false }
    have hg : t.granted b = 0 := by simp [Task.granted, releasing]
    rw [hg, granted_ready] at hset
    simp only [Permit.counted, hlive, true_and, Bool.false_eq_true, false_and, if_false] at hp
    simp only [Ledger.release, Ledger.setPermit, Ledger.setUsed,
      Usize.wrappingSub_of_le (h.used_lt _) hle]
    by_cases hb : q.budget = b
    · subst hb
      rw [if_pos rfl] at hp
      rw [Function.update_self]
      omega
    · rw [if_neg hb] at hp
      rw [Function.update_of_ne (Ne.symm hb)]
      omega
  | send idle =>
    rw [Task.granted_of_idle idle, granted_ready] at hset
    show L.used b = total (Permit.counted b) L.permits + _
    omega
  | receive idle =>
    rw [Task.granted_of_idle idle, granted_ready] at hset
    show L.used b = total (Permit.counted b) L.permits + _
    omega

theorem le_of_effect (h : Accounts limits L ts) (ht : t ∈ ts) (he : Effect limits L t L' t')
    (b : Nat) : L'.used b ≤ limits b := by
  have hle := h.le b
  cases he with
  | @reserve b' n next k idle fits =>
    obtain ⟨-, -, hnext⟩ := (fits_eq_some_iff).mp fits
    show Function.update L.used b' next b ≤ limits b
    by_cases hb : b = b'
    · subst hb
      rwa [Function.update_self]
    · rwa [Function.update_of_ne hb]
  | @grant b' id n next current f k adding fits =>
    obtain ⟨-, -, hnext⟩ := (fits_eq_some_iff).mp fits
    show Function.update L.used b' next b ≤ limits b
    by_cases hb : b = b'
    · subst hb
      rwa [Function.update_self]
    · rwa [Function.update_of_ne hb]
  | @release id k q releasing permit =>
    obtain ⟨hlive, -⟩ := h.live_of_releasing ht releasing permit
    show Function.update L.used q.budget _ b ≤ limits b
    by_cases hb : b = q.budget
    · subst hb
      rw [Function.update_self, Usize.wrappingSub_of_le (h.used_lt _) (h.bytes_le permit hlive)]
      omega
    · rwa [Function.update_of_ne hb]
  | _ => exact hle

theorem holds_cons (id : Nat) (held : List Nat) (phase : Phase α) (j : Nat) :
    Task.holds j ⟨id :: held, phase⟩ = held.count j + if id = j then 1 else 0 := by
  simp only [Task.holds, List.count_cons, beq_iff_eq]

theorem holds_erase {id : Nat} {held : List Nat} (hid : id ∈ held) (phase : Phase α) (j : Nat) :
    Task.holds j ⟨held.erase id, phase⟩ + (if id = j then 1 else 0) = held.count j := by
  have hpos : 0 < held.count id := List.count_pos_iff.mpr hid
  simp only [Task.holds, List.count_erase, beq_iff_eq]
  split
  · rename_i h
    subst h
    omega
  · rfl

@[simp] theorem holds_mk (id : Nat) (held : List Nat) (phase : Phase α) :
    Task.holds id ⟨held, phase⟩ = held.count id := rfl

@[simp] theorem releases_recording (held : List Nat) (b j n : Nat) (k : Prog α) (id : Nat) :
    Task.releases id ⟨held, .recording b j n k⟩ = 0 := rfl

@[simp] theorem releases_releasing (held : List Nat) (j : Nat) (k : Prog α) (id : Nat) :
    Task.releases id ⟨held, .releasing j k⟩ = if j = id then 1 else 0 := rfl

theorem holders_of_effect (h : Accounts limits L ts) (hi : ts[i]? = some t)
    (he : Effect limits L t L' t') (id : Nat) (q : Permit) (hq : L'.permits[id]? = some q) :
    q.holders = total (Task.holds id) (ts.set i t') + L'.transit.count id := by
  have hset := total_set (Task.holds id) hi t'
  have hmem := List.mem_of_getElem? hi
  have hold : Task.holds id t = t.held.count id := rfl
  rw [hold] at hset
  cases he with
  | quiet =>
    have := h.holders id q hq
    rw [holds_mk] at hset
    omega
  | reserve =>
    rw [holds_cons] at hset
    rcases getElem?_concat_iff.mp hq with hq | ⟨rfl, rfl⟩
    · have hlt : id < L.permits.length := (List.getElem?_eq_some_iff.mp hq).1
      have := h.holders id q hq
      rw [if_neg (by omega)] at hset
      show q.holders = _ + L.transit.count id
      omega
    · -- nobody can hold the permit before it exists
      have hnone : total (Task.holds L.permits.length) ts = 0 := by
        rw [total_eq_zero_iff]
        intro u hu
        exact List.count_eq_zero.mpr fun hid => Nat.lt_irrefl _ ((h.knows u hu).1 _ hid)
      have hzero : L.transit.count L.permits.length = 0 :=
        List.count_eq_zero.mpr fun hid => Nat.lt_irrefl _ (h.transit _ hid)
      rw [show (L.setUsed _ _).permits.length = L.permits.length from rfl, hnone, if_pos rfl] at hset
      show 1 = _ + L.transit.count L.permits.length
      show 1 = total (Task.holds L.permits.length) _ + _
      omega
  | grant =>
    have := h.holders id q hq
    rw [holds_mk] at hset
    show q.holders = _ + L.transit.count id
    omega
  | record _ permit =>
    rw [holds_mk] at hset
    show q.holders = _ + L.transit.count id
    rcases (getElem?_set_iff permit).mp hq with ⟨rfl, rfl⟩ | ⟨-, hq⟩
    · have := h.holders id _ permit
      dsimp only
      omega
    · have := h.holders id q hq
      omega
  | clone _ permit =>
    rw [holds_cons] at hset
    show q.holders = _ + L.transit.count id
    rcases (getElem?_set_iff permit).mp hq with ⟨rfl, rfl⟩ | ⟨hne, hq⟩
    · have := h.holders id _ permit
      rw [if_pos rfl] at hset
      dsimp only
      omega
    · have := h.holders id q hq
      rw [if_neg (Ne.symm hne)] at hset
      omega
  | @drop dropped k r _ permit mem =>
    have herase := holds_erase mem (.ready k : Phase α) id
    show q.holders = _ + L.transit.count id
    rcases (getElem?_set_iff permit).mp hq with ⟨rfl, rfl⟩ | ⟨hne, hq⟩
    · have := h.holders id _ permit
      rw [if_pos rfl] at herase
      show _ - 1 = _
      omega
    · have := h.holders id q hq
      rw [if_neg (Ne.symm hne)] at herase
      omega
  | @dropLast dropped k r _ permit mem last =>
    have herase := holds_erase mem (.releasing dropped k : Phase α) id
    show q.holders = _ + L.transit.count id
    rcases (getElem?_set_iff permit).mp hq with ⟨rfl, rfl⟩ | ⟨hne, hq⟩
    · have := h.holders id _ permit
      rw [if_pos rfl] at herase
      show 0 = _
      omega
    · have := h.holders id q hq
      rw [if_neg (Ne.symm hne)] at herase
      omega
  | release _ permit =>
    rw [holds_mk] at hset
    show q.holders = _ + L.transit.count id
    rcases (getElem?_set_iff permit).mp hq with ⟨rfl, rfl⟩ | ⟨-, hq⟩
    · have := h.holders id _ permit
      dsimp only
      omega
    · have := h.holders id q hq
      omega
  | @send sent k _ mem =>
    have herase := holds_erase mem (.ready k : Phase α) id
    have := h.holders id q hq
    show q.holders = _ + (sent :: L.transit).count id
    rw [List.count_cons]
    simp only [beq_iff_eq]
    omega
  | @receive got k _ mem =>
    rw [holds_cons] at hset
    have := h.holders id q hq
    have hpos : 0 < L.transit.count got := List.count_pos_iff.mpr mem
    show q.holders = _ + (L.transit.erase got).count id
    simp only [List.count_erase, beq_iff_eq]
    split at hset
    · rename_i heq
      subst heq
      rw [if_pos rfl]
      omega
    · rename_i hne
      rw [if_neg hne]
      omega

theorem releases_mk_of_idle {held : List Nat} {phase : Phase α} (h : phase.Idle) (id : Nat) :
    Task.releases id ⟨held, phase⟩ = 0 := Task.releases_of_idle (t := ⟨held, phase⟩) h id

theorem live_of_effect (h : Accounts limits L ts) (hi : ts[i]? = some t)
    (he : Effect limits L t L' t') (id : Nat) (q : Permit) (hq : L'.permits[id]? = some q) :
    (if q.live then 1 else 0) = min q.holders 1 + total (Task.releases id) (ts.set i t') := by
  have hset := total_set (Task.releases id) hi t'
  have hmem := List.mem_of_getElem? hi
  cases he with
  | quiet idle idle' =>
    rw [Task.releases_of_idle idle, releases_mk_of_idle idle'] at hset
    have := h.live id q hq
    omega
  | reserve idle =>
    rw [Task.releases_of_idle idle, releases_ready] at hset
    rcases getElem?_concat_iff.mp hq with hq | ⟨rfl, rfl⟩
    · have := h.live id q hq
      omega
    · have hnone : total (Task.releases L.permits.length) ts = 0 := by
        rw [total_eq_zero_iff]
        intro u hu
        have hk := (h.knows u hu).2
        obtain ⟨held, phase⟩ := u
        cases phase with
        | releasing id k => exact if_neg (Nat.ne_of_lt hk)
        | _ => rfl
      change total (Task.releases L.permits.length) _ + 0 =
        total (Task.releases L.permits.length) ts + 0 at hset
      show 1 = 1 + total (Task.releases L.permits.length) _
      omega
  | grant adding =>
    have : t.releases id = 0 := by simp [Task.releases, adding]
    rw [this, releases_recording] at hset
    have := h.live id q hq
    omega
  | record recording permit =>
    have : t.releases id = 0 := by simp [Task.releases, recording]
    rw [this, releases_ready] at hset
    rcases (getElem?_set_iff permit).mp hq with ⟨rfl, rfl⟩ | ⟨-, hq⟩
    · have := h.live id _ permit
      dsimp only
      omega
    · have := h.live id q hq
      omega
  | clone idle permit mem =>
    rw [Task.releases_of_idle idle, releases_ready] at hset
    rcases (getElem?_set_iff permit).mp hq with ⟨rfl, rfl⟩ | ⟨-, hq⟩
    · have := h.live id _ permit
      have := h.holders_pos hmem mem permit
      dsimp only
      omega
    · have := h.live id q hq
      omega
  | drop idle permit mem shared =>
    rw [Task.releases_of_idle idle, releases_ready] at hset
    rcases (getElem?_set_iff permit).mp hq with ⟨rfl, rfl⟩ | ⟨-, hq⟩
    · have := h.live id _ permit
      have := h.holders_pos hmem mem permit
      dsimp only
      omega
    · have := h.live id q hq
      omega
  | dropLast idle permit mem last =>
    rw [Task.releases_of_idle idle, releases_releasing] at hset
    rcases (getElem?_set_iff permit).mp hq with ⟨rfl, rfl⟩ | ⟨hne, hq⟩
    · have := h.live id _ permit
      rw [if_pos rfl] at hset
      dsimp only
      omega
    · have := h.live id q hq
      rw [if_neg (Ne.symm hne)] at hset
      omega
  | @release dead k r releasing permit =>
    obtain ⟨hlive, hz⟩ := h.live_of_releasing hmem releasing permit
    have hold : t.releases id = if dead = id then 1 else 0 := by simp [Task.releases, releasing]
    rw [hold, releases_ready] at hset
    rcases (getElem?_set_iff permit).mp hq with ⟨rfl, rfl⟩ | ⟨hne, hq⟩
    · have := h.live id _ permit
      rw [if_pos hlive] at this
      rw [if_pos rfl] at hset
      simp only [Bool.false_eq_true, if_false, hz]
      omega
    · have := h.live id q hq
      rw [if_neg (Ne.symm hne)] at hset
      omega
  | send idle =>
    rw [Task.releases_of_idle idle, releases_ready] at hset
    have := h.live id q hq
    omega
  | receive idle =>
    rw [Task.releases_of_idle idle, releases_ready] at hset
    have := h.live id q hq
    omega

/-- **Every step keeps the accounts.** -/
theorem accounts_of_effect (h : Accounts limits L ts) (hi : ts[i]? = some t)
    (he : Effect limits L t L' t') : Accounts limits L' (ts.set i t') where
  used := used_of_effect h hi he
  le := le_of_effect h (List.mem_of_getElem? hi) he
  holders := holders_of_effect h hi he
  live := live_of_effect h hi he
  knows := by
    intro u hu
    rcases (mem_set_iff hi).mp hu with rfl | ⟨j, -, hj⟩
    · exact he.knows (h.knows t (List.mem_of_getElem? hi)) h.transit
    · exact (h.knows u (List.mem_of_getElem? hj)).mono he.extends
  transit := by
    have hlen := he.extends.length_le
    intro id hid
    have hold : id ∈ L.transit ∨ id ∈ t.held := by
      cases he with
      | send _ mem =>
        rcases List.mem_cons.mp hid with rfl | hid
        · exact .inr mem
        · exact .inl hid
      | receive => exact .inl (List.mem_of_mem_erase hid)
      | _ => exact .inl hid
    rcases hold with hid | hid
    · exact Nat.lt_of_lt_of_le (h.transit id hid) hlen
    · exact Nat.lt_of_lt_of_le ((h.knows t (List.mem_of_getElem? hi)).1 id hid) hlen

theorem accounts_spawn (h : Accounts limits L ts) (p : Prog α) :
    Accounts limits L (ts ++ [⟨[], .ready p⟩]) where
  used := by
    intro b
    rw [total_concat, granted_ready, Nat.add_zero]
    exact h.used b
  le := h.le
  holders := by
    intro id q hq
    rw [total_concat, holds_mk, List.count_nil, Nat.add_zero]
    exact h.holders id q hq
  live := by
    intro id q hq
    rw [total_concat, releases_ready, Nat.add_zero]
    exact h.live id q hq
  knows := by
    intro t ht
    rcases List.mem_append.mp ht with ht | ht
    · exact h.knows t ht
    · rw [List.mem_singleton.mp ht]
      exact ⟨nofun, trivial⟩
  transit := h.transit

variable (limits) in
theorem accounts_run (es : List (Event (Prog α) TaskAction)) :
    Accounts limits ((budgets α limits).run es).shared ((budgets α limits).run es).threads := by
  refine (budgets α limits).invariant (I := fun p => Accounts limits p.shared p.threads) ?_
    (fun p prog h => accounts_spawn h prog) ?_ es
  · exact ⟨fun _ => rfl, fun _ => Nat.zero_le _, nofun, nofun, nofun, nofun⟩
  · intro p i t e L' t' h hi hn
    exact accounts_of_effect h hi (effect_of_next hn)

/-- When every permit is gone nothing is used. -/
theorem Accounts.used_eq_zero (h : Accounts limits L ts) (hdead : ∀ q ∈ L.permits, q.live = false)
    (b : Nat) : L.used b = 0 := by
  have hpermits : total (Permit.counted b) L.permits = 0 := by
    rw [total_eq_zero_iff]
    intro q hq
    simp [Permit.counted, hdead q hq]
  have htasks : total (Task.granted b) ts = 0 := by
    rw [total_eq_zero_iff]
    intro t ht
    have hk := (h.knows t ht).2
    obtain ⟨held, phase⟩ := t
    cases phase with
    | recording b' id n k =>
      -- a growth under way holds a live permit
      obtain ⟨-, q, hq, -⟩ := hk
      have hlive := (h.permit_of_growing ht rfl hq).1
      rw [hdead q (List.mem_of_getElem? hq)] at hlive
      cases hlive
    | _ => rfl
  rw [h.used b, hpermits, htasks]

end Conservation

end Fusen.Runtime
