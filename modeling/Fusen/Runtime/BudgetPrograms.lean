import Fusen.Runtime.BudgetAccounts

/-!
# What budget programs do

Two readings of a program.  `Prog.Ensures` follows the permits it holds, whatever
other tasks do to the budgets meanwhile; `ensures_run` carries it to every
interleaving.  `Prog.exec` runs the program by itself, and `exec_run` shows that
a task which nobody disturbs does just that.
-/

namespace Fusen.Runtime

open Lib

variable {α β : Type} {limits : Nat → Fin Usize.size}

/-! ## Permits held, under any interference -/

/-- Whatever the budgets answer, the program only touches permits it holds and
ends in `Q` with its result and the permits it then holds. -/
def Prog.Ensures (Q : α → List Nat → Prop) : Prog α → List Nat → Prop
  | .pure a, held => Q a held
  | .tryReserve _ _ k, held => (k none).Ensures Q held ∧ ∀ id, (k (some id)).Ensures Q (id :: held)
  | .grow id _ k, held => id ∈ held ∧ ∀ ok, (k ok).Ensures Q held
  | .bytes id k, held => id ∈ held ∧ ∀ n, (k n).Ensures Q held
  | .belongsTo id _ k, held => id ∈ held ∧ ∀ r, (k r).Ensures Q held
  | .clone id k, held => id ∈ held ∧ k.Ensures Q (id :: held)
  | .drop id k, held => id ∈ held ∧ k.Ensures Q (held.erase id)
  | .send id k, held => id ∈ held ∧ k.Ensures Q (held.erase id)
  | .receive k, held => ∀ id, (k id).Ensures Q (id :: held)

theorem Prog.Ensures.mono {Q R : α → List Nat → Prop} (hQR : ∀ a held, Q a held → R a held) :
    ∀ {p : Prog α} {held : List Nat}, p.Ensures Q held → p.Ensures R held := by
  intro p
  induction p with
  | pure a => exact fun {held} h => hQR a held h
  | tryReserve b n k ih => exact fun h => ⟨ih _ h.1, fun id => ih _ (h.2 id)⟩
  | grow id n k ih => exact fun h => ⟨h.1, fun ok => ih ok (h.2 ok)⟩
  | bytes id k ih => exact fun h => ⟨h.1, fun n => ih n (h.2 n)⟩
  | belongsTo id b k ih => exact fun h => ⟨h.1, fun r => ih r (h.2 r)⟩
  | clone id k ih => exact fun h => ⟨h.1, ih h.2⟩
  | drop id k ih => exact fun h => ⟨h.1, ih h.2⟩
  | send id k ih => exact fun h => ⟨h.1, ih h.2⟩
  | receive k ih => exact fun h id => ih id (h id)

theorem Prog.ensures_bind {Q : β → List Nat → Prop} {f : α → Prog β} :
    ∀ {p : Prog α} {held : List Nat},
      (p >>= f).Ensures Q held ↔ p.Ensures (fun a held => (f a).Ensures Q held) held := by
  intro p
  induction p with
  | pure a => exact fun {held} => Iff.rfl
  | tryReserve b n k ih => exact fun {held} => and_congr (ih _) (forall_congr' fun id => ih _)
  | grow id n k ih => exact fun {held} => and_congr_right fun _ => forall_congr' fun ok => ih ok
  | bytes id k ih => exact fun {held} => and_congr_right fun _ => forall_congr' fun n => ih n
  | belongsTo id b k ih => exact fun {held} => and_congr_right fun _ => forall_congr' fun r => ih r
  | clone id k ih => exact fun {held} => and_congr_right fun _ => ih
  | drop id k ih => exact fun {held} => and_congr_right fun _ => ih
  | send id k ih => exact fun {held} => and_congr_right fun _ => ih
  | receive k ih => exact fun {held} => forall_congr' fun id => ih id

/-- `Prog.Ensures` of a task between two steps. -/
def Task.Ensures (Q : α → List Nat → Prop) (t : Task α) : Prop :=
  match t.phase with
  | .ready p => p.Ensures Q t.held
  | .adding b n _ (.reserve k) => (Prog.tryReserve b n k).Ensures Q t.held
  | .adding _ n _ (.grow id k) => (Prog.grow id n k).Ensures Q t.held
  | .recording _ _ _ k | .releasing _ k => k.Ensures Q t.held

theorem ensures_of_stepAt {Q : α → List Nat → Prop} {L L' : Ledger} {held : List Nat} {p : Prog α}
    {t' : Task α} {e : TaskAction} (h : Task.stepAt L held p e = some (L', t'))
    (hp : p.Ensures Q held) : t'.Ensures Q := by
  cases p <;> cases e <;> simp only [Task.stepAt, reduceCtorEq, Option.map_eq_some_iff] at h
  case tryReserve.run =>
    cases h
    exact hp
  case grow.run | clone.run | send.run =>
    obtain ⟨q, -, h⟩ := h
    cases h
    first | exact hp | exact hp.2
  case bytes.run | belongsTo.run =>
    obtain ⟨q, -, h⟩ := h
    cases h
    exact hp.2 _
  case drop.run =>
    obtain ⟨q, -, h⟩ := h
    split at h <;> cases h <;> exact hp.2
  case receive.pick =>
    split at h <;> cases h
    exact hp _

theorem ensures_of_exchange {Q : α → List Nat → Prop} {L L' : Ledger} {held : List Nat}
    {b n current : Nat} {goal : Goal α} {spurious : Bool} {t' : Task α}
    (h : Task.exchange limits L held b n current goal spurious = some (L', t'))
    (ht : Task.Ensures Q ⟨held, .adding b n current goal⟩) : t'.Ensures Q := by
  unfold Task.exchange at h
  cases goal with
  | reserve k =>
    split at h
    · cases h
      exact ht.1
    · split at h <;> cases h
      · exact ht.2 _
      · exact ht
  | grow id k =>
    split at h
    · cases h
      exact ht.2 false
    · split at h <;> cases h
      · exact ht.2 true
      · exact ht

theorem ensures_of_next {Q : α → List Nat → Prop} {L L' : Ledger} {t t' : Task α} {e : TaskAction}
    (h : Task.next limits L t e = some (L', t')) (ht : t.Ensures Q) : t'.Ensures Q := by
  obtain ⟨held, phase⟩ := t
  cases phase with
  | ready p => exact ensures_of_stepAt (by cases p <;> exact h) ht
  | adding b n current goal =>
    cases e with
    | run => exact ensures_of_exchange h ht
    | fail => exact ensures_of_exchange h ht
    | pick id => cases h
  | recording b id n k =>
    cases e <;> simp only [Task.next, reduceCtorEq, Option.map_eq_some_iff] at h
    obtain ⟨q, -, h⟩ := h
    cases h
    exact ht
  | releasing id k =>
    cases e <;> simp only [Task.next, reduceCtorEq, Option.map_eq_some_iff] at h
    obtain ⟨q, -, h⟩ := h
    cases h
    exact ht

/-- **A task keeps what its program ensures**, in every interleaving. -/
theorem ensures_run {Q : α → List Nat → Prop} {es : List (Event (Prog α) TaskAction)} {i : Nat}
    {t : Task α} (hi : ((budgets α limits).run es).threads[i]? = some t) (ht : t.Ensures Q)
    (later : List (Event (Prog α) TaskAction)) :
    ∃ u, ((budgets α limits).run (es ++ later)).threads[i]? = some u ∧ u.Ensures Q := by
  refine (budgets α limits).stable (J := fun _ => True)
    (I := fun p => ∃ u, p.threads[i]? = some u ∧ u.Ensures Q) (fun _ => trivial) ?_ ?_
    ⟨t, hi, ht⟩ later
  · rintro p prog - ⟨u, hu, hq⟩
    exact ⟨u, getElem?_concat_iff.mpr (.inl hu), hq⟩
  · rintro p j v e L' v' - ⟨u, hu, hq⟩ hj hn
    by_cases hij : i = j
    · subst hij
      obtain rfl := Option.some.inj (hj.symm.trans hu)
      exact ⟨v', (getElem?_set_iff hj).mpr (.inl ⟨rfl, rfl⟩), ensures_of_next hn hq⟩
    · exact ⟨u, (getElem?_set_iff hj).mpr (.inr ⟨hij, hu⟩), hq⟩

/-! ## Undisturbed runs -/

/-- `try_add` without interference. -/
def Ledger.tryAdd (limits : Nat → Fin Usize.size) (L : Ledger) (b n : Nat) : Option Ledger :=
  (Ledger.fits limits b n (L.used b)).map (L.setUsed b)

/-- One holder of the permit `id` is gone; the last one returns its bytes. -/
def Ledger.dropHolder (L : Ledger) (id : Nat) (q : Permit) : Ledger :=
  let L' := L.setPermit id { q with holders := q.holders - 1 }
  if q.holders = 1 then L'.release id { q with holders := 0 } else L'

/-- The program by itself: its result, the ledger and the permits it then holds.
It has none where the program waits for a permit of another task. -/
def Prog.exec (limits : Nat → Fin Usize.size) :
    Prog α → Ledger → List Nat → Option (α × Ledger × List Nat)
  | .pure a, L, held => some (a, L, held)
  | .tryReserve b n k, L, held =>
    match L.tryAdd limits b n with
    | none => (k none).exec limits L held
    | some L' => (k (some L.permits.length)).exec limits (L'.addPermit b n) (L.permits.length :: held)
  | .grow id n k, L, held =>
    match Task.permit? L held id with
    | none => none
    | some q =>
      match L.tryAdd limits q.budget n with
      | none => (k false).exec limits L held
      | some L' => (k true).exec limits (L'.record id q n) held
  | .bytes id k, L, held => (Task.permit? L held id).bind fun q => (k q.bytes).exec limits L held
  | .belongsTo id b k, L, held =>
    (Task.permit? L held id).bind fun q => (k (q.budget == b)).exec limits L held
  | .clone id k, L, held =>
    (Task.permit? L held id).bind fun q =>
      k.exec limits (L.setPermit id { q with holders := q.holders + 1 }) (id :: held)
  | .drop id k, L, held =>
    (Task.permit? L held id).bind fun q => k.exec limits (L.dropHolder id q) (held.erase id)
  | .send id k, L, held =>
    (Task.permit? L held id).bind fun _ =>
      k.exec limits { L with transit := id :: L.transit } (held.erase id)
  | .receive _, _, _ => none

theorem Prog.exec_bind {f : α → Prog β} :
    ∀ {p : Prog α} {L : Ledger} {held : List Nat},
      (p >>= f).exec limits L held =
        (p.exec limits L held).bind fun r => (f r.1).exec limits r.2.1 r.2.2 := by
  intro p
  induction p with
  | pure a => exact fun {L held} => rfl
  | tryReserve b n k ih =>
    intro L held
    show Prog.exec limits (.tryReserve b n fun r => k r >>= f) L held = _
    simp only [Prog.exec]
    split <;> exact ih _
  | grow id n k ih =>
    intro L held
    show Prog.exec limits (.grow id n fun r => k r >>= f) L held = _
    simp only [Prog.exec]
    split
    · rfl
    · split <;> exact ih _
  | bytes id k ih =>
    intro L held
    show Prog.exec limits (.bytes id fun r => k r >>= f) L held = _
    simp only [Prog.exec, Option.bind_assoc]
    exact congrArg _ (funext fun q => ih _)
  | belongsTo id b k ih =>
    intro L held
    show Prog.exec limits (.belongsTo id b fun r => k r >>= f) L held = _
    simp only [Prog.exec, Option.bind_assoc]
    exact congrArg _ (funext fun q => ih _)
  | clone id k ih =>
    intro L held
    show Prog.exec limits (.clone id (k >>= f)) L held = _
    simp only [Prog.exec, Option.bind_assoc]
    exact congrArg _ (funext fun q => ih)
  | drop id k ih =>
    intro L held
    show Prog.exec limits (.drop id (k >>= f)) L held = _
    simp only [Prog.exec, Option.bind_assoc]
    exact congrArg _ (funext fun q => ih)
  | send id k ih =>
    intro L held
    show Prog.exec limits (.send id (k >>= f)) L held = _
    simp only [Prog.exec, Option.bind_assoc]
    exact congrArg _ (funext fun q => ih)
  | receive k => exact fun {L held} => rfl

/-- `Prog.exec` of a task between two steps; a task at the exchange has read the
budget as it is. -/
def Task.exec (limits : Nat → Fin Usize.size) (L : Ledger) (t : Task α) :
    Option (α × Ledger × List Nat) :=
  match t.phase with
  | .ready p => p.exec limits L t.held
  | .adding b n current (.reserve k) =>
    if L.used b = current then (Prog.tryReserve b n k).exec limits L t.held else none
  | .adding b n current (.grow id k) =>
    if L.used b = current then
      match L.tryAdd limits b n with
      | none => (k false).exec limits L t.held
      | some L' =>
        (L.permits[id]?).bind fun q => (k true).exec limits (L'.record id q n) t.held
    else none
  | .recording _ id n k => (L.permits[id]?).bind fun q => k.exec limits (L.record id q n) t.held
  | .releasing id k => (L.permits[id]?).bind fun q => k.exec limits (L.release id q) t.held

section Exec

variable {L L' : Ledger} {t t' : Task α} {e : TaskAction} {r : α × Ledger × List Nat}

theorem exec_of_stepAt {held : List Nat} {p : Prog α}
    (h : Task.stepAt L held p e = some (L', t')) (hx : p.exec limits L held = some r) :
    t'.exec limits L' = some r := by
  cases p <;> cases e <;> simp only [Task.stepAt, reduceCtorEq, Option.map_eq_some_iff] at h
  case tryReserve.run =>
    cases h
    exact (if_pos rfl).trans hx
  case grow.run =>
    obtain ⟨q, hq, h⟩ := h
    cases h
    simp only [Prog.exec, hq] at hx
    simp only [Task.exec, if_true]
    split at hx
    · exact hx
    · rw [(permit?_eq_some_iff.mp hq).2]
      exact hx
  case bytes.run | belongsTo.run | clone.run | send.run =>
    obtain ⟨q, hq, h⟩ := h
    cases h
    simp only [Prog.exec, hq, Option.bind_some] at hx
    exact hx
  case drop.run id k =>
    obtain ⟨q, hq, h⟩ := h
    simp only [Prog.exec, hq, Option.bind_some, Ledger.dropHolder] at hx
    split at h
    · rename_i hlast
      cases h
      rw [if_pos hlast] at hx
      have hget : (L.setPermit id { q with holders := q.holders - 1 }).permits[id]? =
          some { q with holders := q.holders - 1 } :=
        (getElem?_set_iff (permit?_eq_some_iff.mp hq).2).mpr (.inl ⟨rfl, rfl⟩)
      simp only [Task.exec, hget, Option.bind_some]
      rw [hlast] at hx ⊢
      exact hx
    · rename_i hshared
      cases h
      rw [if_neg hshared] at hx
      exact hx
  case receive.pick => cases hx

theorem exec_of_exchange {held : List Nat} {b n current : Nat} {goal : Goal α} {spurious : Bool}
    (h : Task.exchange limits L held b n current goal spurious = some (L', t'))
    (hx : Task.exec limits L ⟨held, .adding b n current goal⟩ = some r) :
    t'.exec limits L' = some r := by
  unfold Task.exchange at h
  cases goal with
  | reserve k =>
    simp only [Task.exec] at hx
    split at hx
    · rename_i hcur
      subst hcur
      simp only [Prog.exec, Ledger.tryAdd] at hx
      split at h
      · rename_i hfits
        cases h
        rw [hfits] at hx
        exact hx
      · rename_i next hfits
        split at h <;> cases h
        · rw [hfits] at hx
          exact hx
        · simp only [Task.exec, if_true, Prog.exec, Ledger.tryAdd]
          exact hx
    · cases hx
  | grow id k =>
    simp only [Task.exec] at hx
    split at hx
    · rename_i hcur
      subst hcur
      split at h
      · rename_i hfits
        cases h
        rw [Ledger.tryAdd, hfits] at hx
        exact hx
      · rename_i next hfits
        split at h <;> cases h
        · rw [Ledger.tryAdd, hfits] at hx
          exact hx
        · simp only [Task.exec, if_true]
          exact hx
    · cases hx

/-- A step of an undisturbed task leaves what the program will have done. -/
theorem exec_of_next (h : Task.next limits L t e = some (L', t'))
    (hx : t.exec limits L = some r) : t'.exec limits L' = some r := by
  obtain ⟨held, phase⟩ := t
  cases phase with
  | ready p => exact exec_of_stepAt (by cases p <;> exact h) hx
  | adding b n current goal =>
    cases e with
    | run => exact exec_of_exchange h hx
    | fail => exact exec_of_exchange h hx
    | pick id => cases h
  | recording b id n k =>
    cases e <;> simp only [Task.next, reduceCtorEq, Option.map_eq_some_iff] at h
    obtain ⟨q, hq, h⟩ := h
    cases h
    simp only [Task.exec, hq, Option.bind_some] at hx
    exact hx
  | releasing id k =>
    cases e <;> simp only [Task.next, reduceCtorEq, Option.map_eq_some_iff] at h
    obtain ⟨q, hq, h⟩ := h
    cases h
    simp only [Task.exec, hq, Option.bind_some] at hx
    exact hx

/-- **An undisturbed task runs its program.**  While only task `i` takes steps, it
goes towards what `Prog.exec` says, and that is what it ends with. -/
theorem exec_run {es : List (Event (Prog α) TaskAction)} {i : Nat} {t : Task α}
    (hi : ((budgets α limits).run es).threads[i]? = some t)
    (hx : t.exec limits ((budgets α limits).run es).shared = some r) (actions : List TaskAction) :
    ∃ u, ((budgets α limits).run (es ++ actions.map (.act i))).threads[i]? = some u ∧
      u.exec limits ((budgets α limits).run (es ++ actions.map (.act i))).shared = some r := by
  induction actions using List.reverseRecOn with
  | nil => exact ⟨t, by simpa using hi, by simpa using hx⟩
  | append_singleton actions e ih =>
    obtain ⟨u, hu, hux⟩ := ih
    rw [List.map_append, ← List.append_assoc]
    rw [List.map_singleton, Threads.run_concat]
    rcases (budgets α limits).step_cases ((budgets α limits).run (es ++ actions.map (.act i)))
      (.act i e) with hs | ⟨kind, hev, -⟩ | ⟨j, a, v, L', v', hev, hj, hn, hs⟩
    · rw [hs]
      exact ⟨u, hu, hux⟩
    · cases hev
    · cases hev
      obtain rfl := Option.some.inj (hu.symm.trans hj)
      rw [hs]
      exact ⟨v', (getElem?_set_iff hj).mpr (.inl ⟨rfl, rfl⟩), exec_of_next hn hux⟩

end Exec

/-! ## One permit more -/

/-- The ledger with a new permit of `n` bytes. -/
def Ledger.opened (L : Ledger) (b n : Nat) : Ledger :=
  (L.setUsed b (L.used b + n)).addPermit b n

/-- The ledger is as before but for permits that are gone. -/
structure Ledger.Restored (L L' : Ledger) : Prop where
  used : L'.used = L.used
  transit : L'.transit = L.transit
  permits : ∃ dead : List Permit, (∀ q ∈ dead, q.live = false) ∧ L'.permits = L.permits ++ dead

theorem Ledger.Restored.refl (L : Ledger) : L.Restored L :=
  ⟨rfl, rfl, [], nofun, (List.append_nil _).symm⟩

section Opened

variable {L : Ledger} {b n : Nat} {held : List Nat}

theorem Ledger.permit_opened : (L.opened b n).permits[L.permits.length]? = some ⟨b, n, 1, true⟩ :=
  getElem?_concat_iff.mpr (.inr ⟨rfl, rfl⟩)

theorem Ledger.used_opened : (L.opened b n).used b = L.used b + n := by
  show Function.update L.used b _ b = _
  rw [Function.update_self]

theorem permit?_opened (hmem : L.permits.length ∈ held) :
    Task.permit? (L.opened b n) held L.permits.length = some ⟨b, n, 1, true⟩ :=
  permit?_eq_some_iff.mpr ⟨hmem, L.permit_opened⟩

variable (limits L held) in
theorem exec_tryReserve (k : Option Nat → Prog α) :
    (Prog.tryReserve b n k).exec limits L held = (k none).exec limits L held ∨
      L.used b + n ≤ limits b ∧
        (Prog.tryReserve b n k).exec limits L held =
          (k (some L.permits.length)).exec limits (L.opened b n) (L.permits.length :: held) := by
  cases hfits : Ledger.fits limits b n (L.used b) with
  | none =>
    left
    simp only [Prog.exec, Ledger.tryAdd, hfits, Option.map_none]
  | some next =>
    obtain ⟨-, rfl, hle⟩ := fits_eq_some_iff.mp hfits
    refine .inr ⟨hle, ?_⟩
    simp only [Prog.exec, Ledger.tryAdd, hfits, Option.map_some]
    rfl

theorem exec_bytes_opened (hmem : L.permits.length ∈ held) (k : Nat → Prog α) :
    (Prog.bytes L.permits.length k).exec limits (L.opened b n) held =
      (k n).exec limits (L.opened b n) held := by
  simp only [Prog.exec, permit?_opened hmem, Option.bind_some]

theorem Ledger.record_opened {m : Nat} (hlt : n + m < Usize.size) :
    Ledger.record ((L.opened b n).setUsed b (L.used b + n + m)) L.permits.length ⟨b, n, 1, true⟩ m =
      L.opened b (n + m) := by
  rw [Ledger.record, Usize.wrappingAdd_of_lt hlt]
  unfold Ledger.opened Ledger.addPermit Ledger.setPermit Ledger.setUsed
  simp only [Function.update_idem, Nat.add_assoc, List.set_append_right _ _ (Nat.le_refl _),
    Nat.sub_self, List.set_cons_zero]

variable (limits L b n held) in
theorem exec_grow_opened (hmem : L.permits.length ∈ held) (m : Nat) (k : Bool → Prog α) :
    (Prog.grow L.permits.length m k).exec limits (L.opened b n) held =
        (k false).exec limits (L.opened b n) held ∨
      L.used b + (n + m) ≤ limits b ∧
        (Prog.grow L.permits.length m k).exec limits (L.opened b n) held =
          (k true).exec limits (L.opened b (n + m)) held := by
  simp only [Prog.exec, permit?_opened hmem, Ledger.tryAdd, Ledger.used_opened]
  cases hfits : Ledger.fits limits b m (L.used b + n) with
  | none => exact .inl rfl
  | some next =>
    obtain ⟨hlt, rfl, hle⟩ := fits_eq_some_iff.mp hfits
    refine .inr ⟨by omega, congrArg (fun L' => (k true).exec limits L' held) ?_⟩
    exact Ledger.record_opened (by omega)

theorem exec_tryReserve_of_le (hle : L.used b + n ≤ limits b) (k : Option Nat → Prog α) :
    (Prog.tryReserve b n k).exec limits L held =
      (k (some L.permits.length)).exec limits (L.opened b n) (L.permits.length :: held) := by
  have hlt := (limits b).isLt
  have hfits : Ledger.fits limits b n (L.used b) = some (L.used b + n) :=
    fits_eq_some_iff.mpr ⟨by omega, rfl, hle⟩
  simp only [Prog.exec, Ledger.tryAdd, hfits, Option.map_some]
  rfl

/-- A growth that fits is granted. -/
theorem exec_grow_of_le (hmem : L.permits.length ∈ held) {m : Nat}
    (hle : L.used b + (n + m) ≤ limits b) (k : Bool → Prog α) :
    (Prog.grow L.permits.length m k).exec limits (L.opened b n) held =
      (k true).exec limits (L.opened b (n + m)) held := by
  have hlt := (limits b).isLt
  have hfits : Ledger.fits limits b m (L.used b + n) = some (L.used b + n + m) :=
    fits_eq_some_iff.mpr ⟨by omega, rfl, by omega⟩
  simp only [Prog.exec, permit?_opened hmem, Ledger.tryAdd, Ledger.used_opened, hfits,
    Option.map_some]
  rw [Ledger.record_opened (by omega)]

theorem exec_drop_opened (hle : L.used b + n ≤ limits b) (k : Prog α) :
    ∃ L', L.Restored L' ∧
      (Prog.drop L.permits.length k).exec limits (L.opened b n) (L.permits.length :: held) =
        k.exec limits L' held := by
  refine ⟨⟨L.used, L.permits ++ [⟨b, n, 0, false⟩], L.transit⟩, ⟨rfl, rfl, _, ?_, rfl⟩, ?_⟩
  · intro q hq
    rw [List.mem_singleton.mp hq]
  · simp only [Prog.exec, permit?_opened List.mem_cons_self, Option.bind_some,
      List.erase_cons_head]
    refine congrArg (fun L' => k.exec limits L' held) ?_
    have hlt := (limits b).isLt
    unfold Ledger.dropHolder Ledger.release Ledger.opened Ledger.addPermit Ledger.setPermit
      Ledger.setUsed
    simp only [if_true, Function.update_self, Function.update_idem,
      List.set_append_right _ _ (Nat.le_refl _), Nat.sub_self, List.set_cons_zero]
    rw [Usize.wrappingSub_of_le (by omega) (by omega), Nat.add_sub_cancel, Function.update_eq_self]

end Opened

/-! ## Results alone -/

/-- Whatever the budgets answer, the program ends with a result in `Q`. -/
def Prog.Ends (Q : α → Prop) : Prog α → Prop
  | .pure a => Q a
  | .tryReserve _ _ k => ∀ permit, (k permit).Ends Q
  | .grow _ _ k | .belongsTo _ _ k => ∀ ok, (k ok).Ends Q
  | .bytes _ k => ∀ n, (k n).Ends Q
  | .clone _ k | .drop _ k | .send _ k => k.Ends Q
  | .receive k => ∀ id, (k id).Ends Q

theorem Prog.ends_bind {Q : β → Prop} {f : α → Prog β} :
    ∀ {p : Prog α}, (p >>= f).Ends Q ↔ p.Ends fun a => (f a).Ends Q := by
  intro p
  induction p with
  | pure a => exact Iff.rfl
  | tryReserve b n k ih => exact forall_congr' fun permit => ih permit
  | grow id n k ih => exact forall_congr' fun ok => ih ok
  | belongsTo id b k ih => exact forall_congr' fun ok => ih ok
  | bytes id k ih => exact forall_congr' fun n => ih n
  | clone id k ih => exact ih
  | drop id k ih => exact ih
  | send id k ih => exact ih
  | receive k ih => exact forall_congr' fun id => ih id

theorem Prog.Ends.mono {Q R : α → Prop} (hQR : ∀ a, Q a → R a) :
    ∀ {p : Prog α}, p.Ends Q → p.Ends R := by
  intro p
  induction p with
  | pure a => exact hQR a
  | tryReserve b n k ih => exact fun h permit => ih permit (h permit)
  | grow id n k ih => exact fun h ok => ih ok (h ok)
  | belongsTo id b k ih => exact fun h ok => ih ok (h ok)
  | bytes id k ih => exact fun h n => ih n (h n)
  | clone id k ih => exact ih
  | drop id k ih => exact ih
  | send id k ih => exact ih
  | receive k ih => exact fun h id => ih id (h id)

/-- A run ends as the program does. -/
theorem Prog.Ends.exec {Q : α → Prop} : ∀ {p : Prog α} {L : Ledger} {held : List Nat},
    p.Ends Q → ∀ {a L' held'}, p.exec limits L held = some (a, L', held') → Q a := by
  intro p
  induction p with
  | pure a =>
    intro L held h a L' held' hx
    cases hx
    exact h
  | tryReserve b n k ih =>
    intro L held h a L' held' hx
    simp only [Prog.exec] at hx
    split at hx
    · exact ih _ (h _) hx
    · exact ih _ (h _) hx
  | grow id n k ih =>
    intro L held h a L' held' hx
    simp only [Prog.exec] at hx
    split at hx
    · cases hx
    · split at hx
      · exact ih _ (h _) hx
      · exact ih _ (h _) hx
  | bytes id k ih =>
    intro L held h a L' held' hx
    obtain ⟨q, -, hx⟩ := Option.bind_eq_some_iff.mp hx
    exact ih _ (h _) hx
  | belongsTo id b k ih =>
    intro L held h a L' held' hx
    obtain ⟨q, -, hx⟩ := Option.bind_eq_some_iff.mp hx
    exact ih _ (h _) hx
  | clone id k ih | drop id k ih | send id k ih =>
    intro L held h a L' held' hx
    obtain ⟨q, -, hx⟩ := Option.bind_eq_some_iff.mp hx
    exact ih h hx
  | receive k ih =>
    intro L held h a L' held' hx
    cases hx

/-! ## A permit handed over -/

section Handed

variable {L : Ledger} {id : Nat} {q : Permit} {held : List Nat}

theorem exec_drop (hmem : id ∈ held) (hq : L.permits[id]? = some q) (k : Prog α) :
    (Prog.drop id k).exec limits L held = k.exec limits (L.dropHolder id q) (held.erase id) := by
  simp only [Prog.exec, permit?_eq_some_iff.mpr ⟨hmem, hq⟩, Option.bind_some]

/-- The last holder returns the bytes of the permit, any other one nothing. -/
theorem Ledger.used_dropHolder (hle : q.bytes ≤ L.used q.budget)
    (hlt : L.used q.budget < Usize.size) (b : Nat) :
    (L.dropHolder id q).used b + (if q.holders = 1 ∧ q.budget = b then q.bytes else 0) =
      L.used b := by
  unfold Ledger.dropHolder
  by_cases hlast : q.holders = 1
  · simp only [hlast, true_and]
    show Function.update L.used q.budget (Usize.wrappingSub (L.used q.budget) q.bytes) b + _ = _
    by_cases hb : q.budget = b
    · subst hb
      rw [Function.update_self, Usize.wrappingSub_of_le hlt hle, if_pos rfl]
      omega
    · rw [Function.update_of_ne (Ne.symm hb), if_neg hb, Nat.add_zero]
  · rw [if_neg hlast, if_neg (fun h => hlast h.1)]
    rfl

end Handed

end Fusen.Runtime
