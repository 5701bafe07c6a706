import Fusen.Wire.Bodies

/-!
# Bodies return what they took

Reading, decoding and encoding a body against the conservation law: for each
program of `Wire/Bodies` what it holds at its end under any interference
(`…_ensures`) and what it leaves of the budget when undisturbed (`…_exec`).
`byteBudget_conserved` puts both together with `Accounts`.
-/

namespace Fusen.Wire

open Lib Fusen.Runtime

variable {limits : Nat → Fin Usize.size} {L : Ledger} {held : List Nat}

/-! ## Permits held at the end -/

/-- The permit of a result, `none` where there is no result. -/
def resultPermit {α : Type} (permit : α → Option Nat) : Except Error α → Option (Option Nat)
  | .ok a => some (permit a)
  | .error _ => none

/-- `resultPermit` of a future that may be dropped. -/
def awaitedPermit {α : Type} (permit : α → Option Nat) (r : Awaited α) : Option (Option Nat) :=
  r.bind (resultPermit permit)

/-- Without a result the held permits are those of before; with one there is also
its permit. -/
def KeepsPermits {ρ : Type} (permit : ρ → Option (Option Nat)) (held : List Nat) (r : ρ)
    (held' : List Nat) : Prop :=
  match permit r with
  | none => held' = held
  | some p => ∃ id, p = some id ∧ held' = id :: held

theorem ensures_abandon {α : Type} {Q : α → List Nat → Prop} {permit : Nat} {r : α}
    (h : Q r held) : (abandon permit r).Ensures Q (permit :: held) := by
  refine ⟨List.mem_cons_self, ?_⟩
  rwa [List.erase_cons_head]

theorem readFrames_ensures (contentLength : Option Nat) (maxBody : Nat) (role : BodyReadRole)
    (permit : Nat) (events : List BodyEvent) (bytes : List UInt8) (reserved : Nat) :
    (readFrames contentLength maxBody role permit events bytes reserved).Ensures
      (KeepsPermits (awaitedPermit (some ∘ Prod.snd)) held) (permit :: held) := by
  induction events generalizing bytes reserved with
  | nil =>
    unfold readFrames
    split
    · exact ensures_abandon rfl
    · exact ⟨permit, rfl, rfl⟩
  | cons event events ih =>
    cases event with
    | data chunk =>
      unfold readFrames
      split
      · exact ensures_abandon rfl
      · split
        · exact ensures_abandon rfl
        · split
          · refine ⟨List.mem_cons_self, fun ok => ?_⟩
            cases ok
            · exact ensures_abandon rfl
            · exact ih _ _
          · exact ih _ _
    | trailers => exact ih _ _
    | failed => exact ensures_abandon rfl
    | dropped => exact ensures_abandon rfl

theorem readBodyWithRole_ensures (body : List BodyEvent) (contentLength : Option Nat)
    (maxBody budget : Nat) (role : BodyReadRole) :
    (readBodyWithRole body contentLength maxBody budget role).Ensures
      (KeepsPermits (awaitedPermit (some ∘ Prod.snd)) held) held := by
  unfold readBodyWithRole
  split
  · exact (rfl : held = held)
  · exact ⟨rfl, fun permit => readFrames_ensures _ _ _ _ _ _ _⟩

/-- A decoded body of its own (without an earlier permit) takes the permit or drops it. -/
theorem holdDecodedResponseBudget_ensures (bytes : List UInt8) (permit maxBody : Nat) :
    (holdDecodedResponseBudget ⟨bytes, none⟩ permit maxBody).Ensures
      (KeepsPermits (fun r => resultPermit (fun _ => r.2.permit) r.1) held) (permit :: held) := by
  unfold holdDecodedResponseBudget
  split
  · exact ensures_abandon rfl
  · refine ⟨List.mem_cons_self, fun n => ?_⟩
    dsimp only
    split
    · refine ⟨List.mem_cons_self, fun ok => ?_⟩
      cases ok
      · exact ensures_abandon rfl
      · exact ⟨permit, rfl, rfl⟩
    · exact ⟨permit, rfl, rfl⟩

theorem holdDecoded_ensures (bytes : List UInt8) (permit maxBody : Nat) :
    (holdDecoded bytes permit maxBody).Ensures (KeepsPermits (awaitedPermit Body.permit) held)
      (permit :: held) := by
  refine Prog.ensures_bind.mpr
    ((holdDecodedResponseBudget_ensures bytes permit maxBody).mono fun r held' h => ?_)
  obtain ⟨r, body⟩ := r
  cases r <;> exact h

theorem decodeHttpResponse_ensures (response : ResponseHead) (body : List BodyEvent)
    (maxBody budget : Nat) :
    (decodeHttpResponse response body maxBody budget).Ensures (KeepsPermits (awaitedPermit Body.permit) held)
      held := by
  have hnone {e : Error} : KeepsPermits (awaitedPermit Body.permit) held (some (.error e)) held := rfl
  unfold decodeHttpResponse
  split
  · exact hnone
  · split
    · split
      · exact ⟨hnone, fun permit => ⟨permit, rfl, rfl⟩⟩
      · exact hnone
    · split
      · split
        · exact hnone
        · exact ⟨hnone, fun permit => holdDecoded_ensures _ _ _⟩
      · split
        · exact hnone
        · refine Prog.ensures_bind.mpr
            ((readBodyWithRole_ensures body _ maxBody budget _).mono fun r held' h => ?_)
          rcases r with _ | (e | ⟨bytes, permit⟩)
          · exact h
          · exact h
          · obtain ⟨id, hid, rfl⟩ := h
            obtain rfl : permit = id := Option.some.inj hid
            dsimp only
            split
            · split
              · exact ensures_abandon rfl
              · exact holdDecoded_ensures _ _ _
            · exact ensures_abandon rfl

/-! ### Encoding -/

theorem write_ensures (w : BudgetedWriter) (buffer : List UInt8) :
    (w.write buffer).Ensures (fun r held' => r.2.permit = w.permit ∧ held' = w.permit :: held)
      (w.permit :: held) := by
  unfold BudgetedWriter.write
  split
  · exact ⟨rfl, rfl⟩
  · refine ⟨List.mem_cons_self, fun ok => ?_⟩
    cases ok <;> exact ⟨rfl, rfl⟩

theorem writeAll_ensures (w : BudgetedWriter) (buffers : List (List UInt8)) :
    (w.writeAll buffers).Ensures (fun r held' => r.2.permit = w.permit ∧ held' = w.permit :: held)
      (w.permit :: held) := by
  induction buffers generalizing w with
  | nil => exact ⟨rfl, rfl⟩
  | cons buffer buffers ih =>
    cases buffer with
    | nil => exact ih w
    | cons b buffer =>
      refine Prog.ensures_bind.mpr ((write_ensures w (b :: buffer)).mono fun r held' h => ?_)
      obtain ⟨written, w'⟩ := r
      obtain ⟨hw, rfl⟩ := h
      cases written with
      | false => exact ⟨hw, rfl⟩
      | true =>
        have := ih w'
        rw [hw] at this
        exact this

theorem successWithBudget_ensures (value : Serialization) (limit wireOverhead budget : Nat) :
    (successWithBudget value limit wireOverhead budget).Ensures (KeepsPermits (resultPermit Body.permit) held)
      held := by
  refine Prog.ensures_bind.mpr ⟨rfl, fun permit => ?_⟩
  show ((BudgetedWriter.writeAll ⟨[], limit, permit, none⟩ value.buffers) >>= _).Ensures _ _
  refine Prog.ensures_bind.mpr
    ((writeAll_ensures ⟨[], limit, permit, none⟩ value.buffers).mono fun r held' h => ?_)
  obtain ⟨written, w⟩ := r
  obtain ⟨hw, rfl⟩ := h
  dsimp only at hw ⊢
  split
  · exact ⟨permit, congrArg some hw, rfl⟩
  · rw [hw]
    exact ensures_abandon rfl

/-- The permits held without the one of the response. -/
def withoutPermit : Option Nat → List Nat → List Nat
  | none, held => held
  | some id, held => held.erase id

/-- What an encoding holds that was handed `permit`: nothing of it after a failure. -/
def KeepsResponse (permit : Option Nat) (held : List Nat) (r : Except Error HttpResponse)
    (held' : List Nat) : Prop :=
  match r with
  | .error _ => held' = withoutPermit permit held
  | .ok r => ∃ id, r.body.permit = some id ∧ held'.Perm (id :: withoutPermit permit held)

theorem encodeWithPermit_ensures (response : Response) (produces : Text) (suppressBody : Bool)
    {permit : Nat} (h : permit ∈ held) :
    (encodeWithPermit response produces suppressBody permit).Ensures
      (KeepsResponse (some permit) held) held := by
  have hok : held.Perm (permit :: held.erase permit) := List.perm_cons_erase h
  unfold encodeWithPermit
  dsimp only
  split
  · exact ⟨permit, rfl, hok⟩
  · split
    · exact ⟨permit, rfl, hok⟩
    · exact ⟨h, rfl⟩

theorem encodeReserving_ensures (response : Response) (produces : Text) (suppressBody : Bool)
    (total budget : Nat) :
    (encodeReserving response produces suppressBody total budget).Ensures
      (KeepsResponse none held) held := by
  refine ⟨rfl, fun permit => ?_⟩
  refine (encodeWithPermit_ensures response produces suppressBody List.mem_cons_self).mono
    fun r held' h => ?_
  cases r with
  | error e => exact Eq.trans h (List.erase_cons_head ..)
  | ok r =>
    obtain ⟨id, hid, hperm⟩ := h
    refine ⟨id, hid, ?_⟩
    rwa [withoutPermit, List.erase_cons_head] at hperm

theorem encodeGrowing_ensures (response : Response) (produces : Text) (suppressBody : Bool)
    (total : Nat) {permit : Nat} (h : permit ∈ held) :
    (encodeGrowing response produces suppressBody total permit).Ensures
      (KeepsResponse (some permit) held) held := by
  refine ⟨h, fun n => ?_⟩
  dsimp only
  split
  · refine ⟨h, fun ok => ?_⟩
    cases ok
    · exact ⟨h, rfl⟩
    · exact encodeWithPermit_ensures response produces suppressBody h
  · exact encodeWithPermit_ensures response produces suppressBody h

theorem perm_erase_cons {permit : Nat} (h : permit ∈ held) (id : Nat) :
    ((id :: held).erase permit).Perm (id :: held.erase permit) := by
  by_cases hid : id = permit
  · subst hid
    rw [List.erase_cons_head]
    exact List.perm_cons_erase h
  · rw [List.erase_cons_tail (by simpa using hid)]

/-- A failed `encode_success` holds nothing of the response any more; a successful
one holds the permit of its body in place of the response's. -/
theorem encodeSuccess_ensures (response : Response) (produces : Text) (suppressBody : Bool)
    (maxBody budget : Nat) (h : ∀ id, response.body.permit = some id → id ∈ held) :
    (encodeSuccess response produces suppressBody maxBody budget).Ensures
      (KeepsResponse response.body.permit held) held := by
  unfold encodeSuccess
  dsimp only
  cases hp : response.body.permit with
  | none =>
    split
    · exact (rfl : held = held)
    · exact encodeReserving_ensures response produces _ _ budget
  | some permit =>
    have hmem := h permit hp
    split
    · exact ⟨hmem, rfl⟩
    · refine ⟨hmem, fun own => ?_⟩
      cases own with
      | true => exact encodeGrowing_ensures response produces _ _ hmem
      | false =>
        -- a permit of another budget goes after the new one has come
        refine Prog.ensures_bind.mpr
          ((encodeReserving_ensures response produces _ _ budget).mono fun r held' hr => ?_)
        cases r with
        | error e =>
          obtain rfl : held' = held := hr
          exact ⟨hmem, rfl⟩
        | ok r =>
          obtain ⟨id, hid, hperm⟩ := hr
          have hmem' : permit ∈ held' := hperm.mem_iff.mpr (List.mem_cons_of_mem _ hmem)
          exact ⟨hmem', id, hid, (hperm.erase permit).trans (perm_erase_cons hmem id)⟩

/-! ## Used bytes, undisturbed -/

/-- What a run leaves: without a result the ledger of before, with one a permit more. -/
def Settles {ρ : Type} (limits : Nat → Fin Usize.size) (b : Nat) (L : Ledger) (held : List Nat)
    (permit : ρ → Option (Option Nat)) (x : Option (ρ × Ledger × List Nat)) : Prop :=
  ∃ r L' held', x = some (r, L', held') ∧
    match permit r with
    | none => held' = held ∧ L.Restored L'
    | some p => p = some L.permits.length ∧ held' = L.permits.length :: held ∧
        ∃ n, L.used b + n ≤ limits b ∧ L' = L.opened b n

section Undisturbed

variable {b n : Nat} {ρ : Type} {permit : ρ → Option (Option Nat)} {r : ρ}

theorem settles_none (h : permit r = none) : Settles limits b L held permit (some (r, L, held)) := by
  refine ⟨r, L, held, rfl, ?_⟩
  rw [h]
  exact ⟨rfl, .refl L⟩

theorem settles_ok (h : permit r = some (some L.permits.length)) (hle : L.used b + n ≤ limits b) :
    Settles limits b L held permit (some (r, L.opened b n, L.permits.length :: held)) := by
  refine ⟨r, _, _, rfl, ?_⟩
  rw [h]
  exact ⟨rfl, rfl, n, hle, rfl⟩

theorem settles_abandon (hle : L.used b + n ≤ limits b) (h : permit r = none) :
    Settles limits b L held permit
      ((abandon L.permits.length r).exec limits (L.opened b n) (L.permits.length :: held)) := by
  obtain ⟨L', hL', hx⟩ := exec_drop_opened hle (Prog.pure r)
  refine ⟨r, L', held, hx, ?_⟩
  rw [h]
  exact ⟨rfl, hL'⟩

theorem readFrames_exec (contentLength : Option Nat) (maxBody : Nat) (role : BodyReadRole)
    (events : List BodyEvent) (bytes : List UInt8) (reserved : Nat)
    (hle : L.used b + n ≤ limits b) :
    Settles limits b L held (awaitedPermit (some ∘ Prod.snd))
      ((readFrames contentLength maxBody role L.permits.length events bytes reserved).exec limits
        (L.opened b n) (L.permits.length :: held)) := by
  induction events generalizing bytes reserved n with
  | nil =>
    unfold readFrames
    split
    · exact settles_abandon hle rfl
    · exact settles_ok rfl hle
  | cons event events ih =>
    cases event with
    | data chunk =>
      unfold readFrames
      split
      · exact settles_abandon hle rfl
      · split
        · exact settles_abandon hle rfl
        · split
          · dsimp only
            rcases exec_grow_opened limits L b n (L.permits.length :: held) List.mem_cons_self
              _ _ with hx | ⟨hle', hx⟩
            · rw [hx]
              exact settles_abandon hle rfl
            · rw [hx]
              exact ih _ _ hle'
          · exact ih _ _ hle
    | trailers => exact ih _ _ hle
    | failed => exact settles_abandon hle rfl
    | dropped => exact settles_abandon hle rfl

theorem readBodyWithRole_exec (body : List BodyEvent) (contentLength : Option Nat)
    (maxBody : Nat) (role : BodyReadRole) :
    Settles limits b L held (awaitedPermit (some ∘ Prod.snd))
      ((readBodyWithRole body contentLength maxBody b role).exec limits L held) := by
  unfold readBodyWithRole
  split
  · exact settles_none rfl
  · dsimp only
    rcases exec_tryReserve limits L held _ with hx | ⟨hle, hx⟩
    · rw [hx]
      exact settles_none rfl
    · rw [hx]
      exact readFrames_exec _ _ _ _ _ _ hle

theorem holdDecodedResponseBudget_exec (bytes : List UInt8) (maxBody : Nat)
    (hle : L.used b + n ≤ limits b) :
    Settles limits b L held
      (fun r : Except Error Unit × Body => resultPermit (fun _ => r.2.permit) r.1)
      ((holdDecodedResponseBudget ⟨bytes, none⟩ L.permits.length maxBody).exec limits
        (L.opened b n) (L.permits.length :: held)) := by
  unfold holdDecodedResponseBudget
  split
  · exact settles_abandon hle rfl
  · rw [exec_bytes_opened List.mem_cons_self]
    dsimp only
    split
    · rcases exec_grow_opened limits L b n (L.permits.length :: held) List.mem_cons_self
        _ _ with hx | ⟨hle', hx⟩
      · rw [hx]
        exact settles_abandon hle rfl
      · rw [hx]
        exact settles_ok rfl hle'
    · exact settles_ok rfl hle

theorem holdDecoded_exec (bytes : List UInt8) (maxBody : Nat) (hle : L.used b + n ≤ limits b) :
    Settles limits b L held (awaitedPermit Body.permit)
      ((holdDecoded bytes L.permits.length maxBody).exec limits (L.opened b n)
        (L.permits.length :: held)) := by
  obtain ⟨⟨r, body⟩, L', held', hx, hr⟩ : Settles limits b L held _ _ :=
    holdDecodedResponseBudget_exec bytes maxBody hle
  unfold holdDecoded
  rw [Prog.exec_bind, hx]
  cases r with
  | ok => exact ⟨some (.ok body), L', held', rfl, hr⟩
  | error e => exact ⟨some (.error e), L', held', rfl, hr⟩

theorem decodeHttpResponse_exec (response : ResponseHead) (body : List BodyEvent) (maxBody : Nat) :
    Settles limits b L held (awaitedPermit Body.permit)
      ((decodeHttpResponse response body maxBody b).exec limits L held) := by
  unfold decodeHttpResponse
  split
  · exact settles_none rfl
  · split
    · split
      · rcases exec_tryReserve limits L held _ with hx | ⟨hle, hx⟩
        · rw [hx]
          exact settles_none rfl
        · rw [hx]
          exact settles_ok rfl hle
      · exact settles_none rfl
    · split
      · split
        · exact settles_none rfl
        · rcases exec_tryReserve limits L held _ with hx | ⟨hle, hx⟩
          · rw [hx]
            exact settles_none rfl
          · rw [hx]
            exact holdDecoded_exec _ _ hle
      · split
        · exact settles_none rfl
        · rename_i contentLength _
          obtain ⟨r, L', held', hx, hr⟩ : Settles limits b L held _ _ :=
            readBodyWithRole_exec body contentLength maxBody (.response response.requestId)
          rw [Prog.exec_bind, hx]
          rcases r with _ | (e | ⟨bytes, permit⟩)
          · exact ⟨none, L', held', rfl, hr⟩
          · exact ⟨some (.error e), L', held', rfl, hr⟩
          · obtain ⟨hpermit, rfl, n, hle, rfl⟩ := hr
            obtain rfl : permit = L.permits.length := Option.some.inj hpermit
            dsimp only [Option.bind_some]
            split
            · split
              · exact settles_abandon hle rfl
              · exact holdDecoded_exec _ _ hle
            · exact settles_abandon hle rfl

/-! ### Encoding, undisturbed -/

variable (held) in
theorem write_exec (w : BudgetedWriter) (buffer : List UInt8) (hw : w.permit = L.permits.length)
    (hle : L.used b + n ≤ limits b) :
    ∃ written w' m, w'.permit = L.permits.length ∧ L.used b + m ≤ limits b ∧
      (w.write buffer).exec limits (L.opened b n) (L.permits.length :: held) =
        some ((written, w'), L.opened b m, L.permits.length :: held) := by
  unfold BudgetedWriter.write
  split
  · exact ⟨false, { w with failure := some .limitExceeded }, n, hw, hle, rfl⟩
  · rcases exec_grow_opened limits L b n (L.permits.length :: held) List.mem_cons_self
      _ _ with hx | ⟨hle', hx⟩
    · rw [hw, hx]
      exact ⟨false, { w with failure := some .budgetExhausted }, n, hw, hle, by rw [← hw]; rfl⟩
    · rw [hw, hx]
      exact ⟨true, { w with bytes := w.bytes ++ buffer }, _, hw, hle', by rw [← hw]; rfl⟩

variable (held) in
theorem writeAll_exec (w : BudgetedWriter) (buffers : List (List UInt8))
    (hw : w.permit = L.permits.length) (hle : L.used b + n ≤ limits b) :
    ∃ written w' m, w'.permit = L.permits.length ∧ L.used b + m ≤ limits b ∧
      (w.writeAll buffers).exec limits (L.opened b n) (L.permits.length :: held) =
        some ((written, w'), L.opened b m, L.permits.length :: held) := by
  induction buffers generalizing w n with
  | nil => exact ⟨true, w, n, hw, hle, rfl⟩
  | cons buffer buffers ih =>
    cases buffer with
    | nil => exact ih w hw hle
    | cons c buffer =>
      obtain ⟨written, w', m, hw', hle', hx⟩ := write_exec held w (c :: buffer) hw hle
      unfold BudgetedWriter.writeAll
      rw [Prog.exec_bind, hx]
      cases written with
      | false => exact ⟨false, w', m, hw', hle', rfl⟩
      | true => exact ih w' hw' hle'

theorem successWithBudget_exec (value : Serialization) (limit wireOverhead : Nat) :
    Settles limits b L held (resultPermit Body.permit)
      ((successWithBudget value limit wireOverhead b).exec limits L held) := by
  unfold successWithBudget BudgetedWriter.new
  rw [Prog.exec_bind]
  rcases exec_tryReserve limits L held _ with hx | ⟨hle, hx⟩
  · rw [hx]
    exact settles_none rfl
  · rw [hx]
    obtain ⟨written, w', m, hw', hle', hx'⟩ := writeAll_exec held
      ⟨[], limit, L.permits.length, none⟩ value.buffers rfl hle
    show Settles _ _ _ _ _ ((BudgetedWriter.writeAll _ _ >>= _).exec _ _ _)
    rw [Prog.exec_bind, hx']
    dsimp only [Option.bind_some]
    split
    · exact settles_ok (congrArg some (congrArg some hw')) hle'
    · rw [hw']
      exact settles_abandon hle' rfl

theorem encodeWithPermit_exec (response : Response) (produces : Text) (suppressBody : Bool)
    (hle : L.used b + n ≤ limits b) :
    Settles limits b L held (resultPermit fun r : HttpResponse => r.body.permit)
      ((encodeWithPermit response produces suppressBody L.permits.length).exec limits
        (L.opened b n) (L.permits.length :: held)) := by
  unfold encodeWithPermit
  dsimp only
  split
  · exact settles_ok rfl hle
  · split
    · exact settles_ok rfl hle
    · exact settles_abandon hle rfl

theorem encodeReserving_exec (response : Response) (produces : Text) (suppressBody : Bool)
    (total : Nat) :
    Settles limits b L held (resultPermit fun r : HttpResponse => r.body.permit)
      ((encodeReserving response produces suppressBody total b).exec limits L held) := by
  rcases exec_tryReserve limits L held _ with hx | ⟨hle, hx⟩
  · rw [encodeReserving, hx]
    exact settles_none rfl
  · rw [encodeReserving, hx]
    exact encodeWithPermit_exec _ _ _ hle

/-- What a failed encoding leaves that was handed the permit `id`: its hold is gone,
and with the last hold the bytes; a growth stays with the other holders. -/
def GivesBack (L : Ledger) (held : List Nat) (id : Nat) (q : Permit) (produces : Text)
    (x : Option (Except Error HttpResponse × Ledger × List Nat)) : Prop :=
  ∃ r L' held', x = some (r, L', held') ∧ ∀ e, r = .error e →
    held' = held.erase id ∧ ∃ kept, (kept = 0 ∨ HeaderValue.fromStr produces = none ∧ q.holders ≠ 1) ∧
      ∀ b, L'.used b + (if q.holders = 1 ∧ q.budget = b then q.bytes else 0) =
        L.used b + if q.budget = b then kept else 0

variable {id : Nat} {q : Permit} {produces : Text}

theorem givesBack_ok (r : HttpResponse) (L' : Ledger) (held' : List Nat) :
    GivesBack L held id q produces (some (.ok r, L', held')) :=
  ⟨.ok r, L', held', rfl, fun e he => by cases he⟩

theorem givesBack_abandon (hmem : id ∈ held) (hq : L.permits[id]? = some q)
    (hle : q.bytes ≤ L.used q.budget) (hlt : L.used q.budget < Usize.size)
    (r : Except Error HttpResponse) :
    GivesBack L held id q produces ((abandon id r).exec limits L held) := by
  refine ⟨r, L.dropHolder id q, held.erase id, exec_drop hmem hq _, fun e _ => ⟨rfl, 0, .inl rfl, ?_⟩⟩
  intro b
  rw [Ledger.used_dropHolder hle hlt b, ite_self, Nat.add_zero]

/-- A response whose permit has just grown. -/
theorem encodeGrown_exec (response : Response) (produces : Text) (suppressBody : Bool)
    {missing : Nat} (hmem : id ∈ held) (hq : L.permits[id]? = some q)
    (hle : q.bytes ≤ L.used q.budget) (hlt : L.used q.budget + missing < Usize.size) :
    GivesBack L held id q produces
      ((encodeWithPermit response produces suppressBody id).exec limits
        ((L.setUsed q.budget (L.used q.budget + missing)).record id q missing) held) := by
  unfold encodeWithPermit
  dsimp only
  split
  · exact givesBack_ok _ _ _
  · split
    · exact givesBack_ok _ _ _
    · rename_i hproduces
      rw [Ledger.record, Usize.wrappingAdd_of_lt (by omega)]
      let grown : Permit := { q with bytes := q.bytes + missing }
      let L₁ := (L.setUsed q.budget (L.used q.budget + missing)).setPermit id grown
      have hget : L₁.permits[id]? = some grown := (getElem?_set_iff hq).mpr (.inl ⟨rfl, rfl⟩)
      have hused : L₁.used q.budget = L.used q.budget + missing := Function.update_self ..
      refine ⟨_, L₁.dropHolder id grown, held.erase id, exec_drop hmem hget _, fun e _ => ⟨rfl, ?_⟩⟩
      have hgrown : grown.bytes ≤ L₁.used grown.budget := by
        show q.bytes + missing ≤ L₁.used q.budget
        omega
      have hsize : L₁.used grown.budget < Usize.size := by
        show L₁.used q.budget < _
        omega
      have hdrop : ∀ b, (L₁.dropHolder id grown).used b + _ = L₁.used b :=
        Ledger.used_dropHolder hgrown hsize
      have hother {b : Nat} (hb : q.budget ≠ b) : L₁.used b = L.used b :=
        Function.update_of_ne (Ne.symm hb) ..
      by_cases hlast : q.holders = 1
      · refine ⟨0, .inl rfl, fun b => ?_⟩
        have hb := hdrop b
        change _ + (if q.holders = 1 ∧ q.budget = b then q.bytes + missing else 0) = _ at hb
        by_cases hbudget : q.budget = b
        · subst hbudget
          rw [if_pos ⟨hlast, rfl⟩] at hb ⊢
          rw [ite_self]
          omega
        · rw [if_neg (fun h => hbudget h.2)] at hb ⊢
          rw [hother hbudget] at hb
          rw [ite_self]
          omega
      · refine ⟨missing, .inr ⟨hproduces, hlast⟩, fun b => ?_⟩
        have hb := hdrop b
        change _ + (if q.holders = 1 ∧ q.budget = b then q.bytes + missing else 0) = _ at hb
        rw [if_neg (fun h => hlast h.1)] at hb ⊢
        by_cases hbudget : q.budget = b
        · subst hbudget
          rw [if_pos rfl]
          omega
        · rw [if_neg hbudget]
          rw [hother hbudget] at hb
          omega

theorem encodeGrowing_exec (response : Response) (produces : Text) (suppressBody : Bool)
    (total : Nat) (hmem : id ∈ held) (hq : L.permits[id]? = some q)
    (hle : q.bytes ≤ L.used q.budget) (hlt : L.used q.budget < Usize.size) :
    GivesBack L held id q produces
      ((encodeGrowing response produces suppressBody total id).exec limits L held) := by
  have hsame : GivesBack L held id q produces
      ((encodeWithPermit response produces suppressBody id).exec limits L held) := by
    unfold encodeWithPermit
    dsimp only
    split
    · exact givesBack_ok _ _ _
    · split
      · exact givesBack_ok _ _ _
      · exact givesBack_abandon hmem hq hle hlt _
  have hp : Task.permit? L held id = some q := permit?_eq_some_iff.mpr ⟨hmem, hq⟩
  simp only [encodeGrowing, Prog.exec, hp, Option.bind_some]
  split
  · rename_i hmissing
    simp only [Prog.exec, hp, Ledger.tryAdd]
    cases hfits : Ledger.fits limits q.budget (total - q.bytes) (L.used q.budget) with
    | none => exact givesBack_abandon hmem hq hle hlt _
    | some next =>
      obtain ⟨hlt', rfl, -⟩ := fits_eq_some_iff.mp hfits
      exact encodeGrown_exec response produces suppressBody hmem hq hle hlt'
  · exact hsame

theorem encodeSuccess_exec (response : Response) (produces : Text) (suppressBody : Bool)
    (maxBody : Nat) (hp : response.body.permit = some id) (hmem : id ∈ held)
    (hq : L.permits[id]? = some q) (hle : q.bytes ≤ L.used q.budget)
    (hlt : L.used q.budget < Usize.size) :
    GivesBack L held id q produces
      ((encodeSuccess response produces suppressBody maxBody b).exec limits L held) := by
  have hpermit : Task.permit? L held id = some q := permit?_eq_some_iff.mpr ⟨hmem, hq⟩
  unfold encodeSuccess
  simp only [hp]
  split
  · exact givesBack_abandon hmem hq hle hlt _
  · simp only [Prog.exec, hpermit, Option.bind_some]
    split
    · exact encodeGrowing_exec response produces _ _ hmem hq hle hlt
    · obtain ⟨r, L', held', hx, hr⟩ : Settles limits b L held _ _ :=
        encodeReserving_exec response produces (response.suppressesBody suppressBody)
          (response.total (response.suppressesBody suppressBody))
      rw [Prog.exec_bind, hx]
      cases r with
      | error e =>
        obtain ⟨rfl, hrestored⟩ := hr
        obtain ⟨dead, -, hdead⟩ := hrestored.permits
        have hq' : L'.permits[id]? = some q := by
          rw [hdead, List.getElem?_append_left (List.getElem?_eq_some_iff.mp hq).1]
          exact hq
        have hg : GivesBack L' held' id q produces ((abandon id (.error e)).exec limits L' held') :=
          givesBack_abandon hmem hq' (by rwa [hrestored.used]) (by rwa [hrestored.used]) (.error e)
        unfold GivesBack at hg ⊢
        rwa [hrestored.used] at hg
      | ok r =>
        obtain ⟨-, rfl, n, -, rfl⟩ := hr
        have hq' : (L.opened b n).permits[id]? = some q := getElem?_concat_iff.mpr (.inl hq)
        have hmem' : id ∈ L.permits.length :: held := List.mem_cons_of_mem _ hmem
        exact ⟨.ok r, _, _, exec_drop hmem' hq' (Prog.pure (Except.ok r : Except Error HttpResponse)),
          fun e he => by cases he⟩

end Undisturbed

/-! ## In every interleaving -/

/-- A run of the program that fails leaves nothing behind: the task holds the
permits it held when it began, whatever went on meanwhile, and if it was not
disturbed the used bytes are as they were. -/
def LeavesAsBefore {ρ : Type} (limits : Nat → Fin Usize.size) (p : Prog ρ) (failed : ρ → Prop) :
    Prop :=
  ∀ (es : List (Event (Prog ρ) TaskAction)) (i : Nat) (held : List Nat),
    ((budgets ρ limits).run es).threads[i]? = some ⟨held, .ready p⟩ →
    (∀ (later : List (Event (Prog ρ) TaskAction)) (r : ρ) (held' : List Nat),
      ((budgets ρ limits).run (es ++ later)).threads[i]? = some ⟨held', .ready (.pure r)⟩ →
      failed r → held' = held) ∧
    ∀ (actions : List TaskAction) (r : ρ) (held' : List Nat),
      ((budgets ρ limits).run (es ++ actions.map (.act i))).threads[i]? =
        some ⟨held', .ready (.pure r)⟩ →
      failed r →
      ((budgets ρ limits).run (es ++ actions.map (.act i))).shared.used =
        ((budgets ρ limits).run es).shared.used

theorem KeepsPermits.of_none {ρ : Type} {permit : ρ → Option (Option Nat)} {r : ρ}
    {held' : List Nat} (h : KeepsPermits permit held r held') (hr : permit r = none) :
    held' = held := by
  rwa [KeepsPermits, hr] at h

theorem leavesAsBefore_of {ρ : Type} {p : Prog ρ} {permit : ρ → Option (Option Nat)} {b : Nat}
    (hensures : ∀ held, p.Ensures (fun r held' => permit r = none → held' = held) held)
    (hsettles : ∀ L held, Settles limits b L held permit (p.exec limits L held)) :
    LeavesAsBefore limits p fun r => permit r = none := by
  intro es i held hi
  constructor
  · intro later r held' hfin hr
    obtain ⟨u, hu, hq⟩ := ensures_run hi (hensures held) later
    obtain rfl := Option.some.inj (hu.symm.trans hfin)
    exact hq hr
  · intro actions r held' hfin hr
    obtain ⟨r', L', held'', hx, hsettled⟩ := hsettles ((budgets ρ limits).run es).shared held
    obtain ⟨u, hu, hux⟩ := exec_run hi hx actions
    obtain rfl := Option.some.inj (hu.symm.trans hfin)
    cases hux
    rw [hr] at hsettled
    exact hsettled.2.used

/-- A failed `encode_success` that was handed a permit leaves what it was not
handed as before: the hold on the permit is gone, and if the task was not
disturbed the used bytes are those of before less the permit's if that was the
last hold.  What it grew another holder's permit by stays, which takes a media
type that is no header value. -/
def LeavesButPermit (limits : Nat → Fin Usize.size) (p : Prog (Except Error HttpResponse))
    (id : Nat) (produces : Text) : Prop :=
  ∀ (es : List (Event (Prog (Except Error HttpResponse)) TaskAction)) (i : Nat) (held : List Nat)
    (q : Permit),
    ((budgets _ limits).run es).threads[i]? = some ⟨held, .ready p⟩ → id ∈ held →
    ((budgets _ limits).run es).shared.permits[id]? = some q →
    (∀ (later : List (Event (Prog (Except Error HttpResponse)) TaskAction)) (e : Error)
      (held' : List Nat),
      ((budgets _ limits).run (es ++ later)).threads[i]? =
        some ⟨held', .ready (.pure (.error e))⟩ → held' = held.erase id) ∧
    ∀ (actions : List TaskAction) (e : Error) (held' : List Nat),
      ((budgets _ limits).run (es ++ actions.map (.act i))).threads[i]? =
        some ⟨held', .ready (.pure (.error e))⟩ →
      ∃ kept, (kept = 0 ∨ HeaderValue.fromStr produces = none ∧ q.holders ≠ 1) ∧
        ∀ b, ((budgets _ limits).run (es ++ actions.map (.act i))).shared.used b +
            (if q.holders = 1 ∧ q.budget = b then q.bytes else 0) =
          ((budgets _ limits).run es).shared.used b + if q.budget = b then kept else 0

theorem encodeSuccess_leavesButPermit (response : Response) (produces : Text)
    (suppressBody : Bool) (maxBody b : Nat) {id : Nat} (hp : response.body.permit = some id) :
    LeavesButPermit limits (encodeSuccess response produces suppressBody maxBody b) id produces := by
  intro es i held q hi hmem hq
  have hown : ∀ id', response.body.permit = some id' → id' ∈ held := by
    intro id' hid'
    obtain rfl : id = id' := Option.some.inj (hp.symm.trans hid')
    exact hmem
  constructor
  · intro later e held' hfin
    obtain ⟨u, hu, hkeeps⟩ := ensures_run hi
      (encodeSuccess_ensures response produces suppressBody maxBody b hown) later
    obtain rfl := Option.some.inj (hu.symm.trans hfin)
    have hkeeps' : held' = withoutPermit response.body.permit held := hkeeps
    rwa [hp] at hkeeps'
  · intro actions e held' hfin
    have hacc := accounts_run limits es
    have hlive := hacc.live_of_pos hq (hacc.holders_pos (List.mem_of_getElem? hi) hmem hq)
    obtain ⟨r, L', held'', hx, hback⟩ : GivesBack _ held id q produces
        ((encodeSuccess response produces suppressBody maxBody b).exec limits _ held) :=
      encodeSuccess_exec response produces suppressBody maxBody hp hmem hq
        (hacc.bytes_le hq hlive) (hacc.used_lt _)
    obtain ⟨u, hu, hux⟩ := exec_run hi hx actions
    obtain rfl := Option.some.inj (hu.symm.trans hfin)
    cases hux
    exact (hback e rfl).2

/-- **Byte budgets conserve their bytes.**  In every interleaving of any programs
the used bytes of a budget are the sizes of its live permits and of the growths
between their two additions, within the limit; no release takes more than there
is; and when every permit is gone nothing is used.  A body read, a response
decoding or a response serialization that fails leaves what it found, and a
failed `encode_success` also returns the permit it was handed. -/
theorem byteBudget_conserved (limits : Nat → Fin Usize.size) :
    (∀ (α : Type) (es : List (Event (Prog α) TaskAction)),
      let L := ((budgets α limits).run es).shared
      let ts := ((budgets α limits).run es).threads
      (∀ b, L.used b = total (Permit.counted b) L.permits + total (Task.granted b) ts) ∧
      (∀ b, (∀ t ∈ ts, t.granted b = 0) → L.used b = total (Permit.counted b) L.permits) ∧
      (∀ b, L.used b ≤ limits b) ∧
      (∀ t ∈ ts, ∀ id k q, t.phase = .releasing id k → L.permits[id]? = some q →
        q.bytes ≤ L.used q.budget) ∧
      ((∀ q ∈ L.permits, q.live = false) → ∀ b, L.used b = 0)) ∧
    (∀ body contentLength maxBody budget role,
      LeavesAsBefore limits (readBodyWithRole body contentLength maxBody budget role)
        fun r => awaitedPermit (some ∘ Prod.snd) r = none) ∧
    (∀ response body maxBody budget,
      LeavesAsBefore limits (decodeHttpResponse response body maxBody budget)
        fun r => awaitedPermit Body.permit r = none) ∧
    (∀ value limit wireOverhead budget,
      LeavesAsBefore limits (successWithBudget value limit wireOverhead budget)
        fun r => resultPermit Body.permit r = none) ∧
    (∀ response produces suppressBody maxBody budget, response.body.permit = none →
      LeavesAsBefore limits (encodeSuccess response produces suppressBody maxBody budget)
        fun r => resultPermit (fun r => r.body.permit) r = none) ∧
    ∀ response produces suppressBody maxBody budget id, response.body.permit = some id →
      LeavesButPermit limits (encodeSuccess response produces suppressBody maxBody budget) id
        produces := by
  refine ⟨fun α es => ?_, ?_, ?_, ?_, ?_, ?_⟩
  · have h := accounts_run limits es
    refine ⟨h.used, fun b hnone => ?_, h.le, ?_, h.used_eq_zero⟩
    · have := h.used b
      rwa [total_eq_zero_iff.mpr hnone, Nat.add_zero] at this
    · intro t ht id k q hrel hq
      exact h.bytes_le hq (h.live_of_releasing ht hrel hq).1
  · intro body contentLength maxBody budget role
    exact leavesAsBefore_of
      (fun held => (readBodyWithRole_ensures body contentLength maxBody budget role).mono
        fun _ _ h => h.of_none)
      fun L held => readBodyWithRole_exec body contentLength maxBody role
  · intro response body maxBody budget
    exact leavesAsBefore_of
      (fun held => (decodeHttpResponse_ensures response body maxBody budget).mono
        fun _ _ h => h.of_none)
      fun L held => decodeHttpResponse_exec response body maxBody
  · intro value limit wireOverhead budget
    exact leavesAsBefore_of
      (fun held => (successWithBudget_ensures value limit wireOverhead budget).mono
        fun _ _ h => h.of_none)
      fun L held => successWithBudget_exec value limit wireOverhead
  · intro response produces suppressBody maxBody budget hp
    refine leavesAsBefore_of (b := budget) (fun held => ?_) fun L held => ?_
    · refine (encodeSuccess_ensures response produces suppressBody maxBody budget ?_).mono
        fun r held' h hr => ?_
      · rw [hp]
        exact nofun
      · cases r with
        | error e =>
          have hkeeps : held' = withoutPermit response.body.permit held := h
          rwa [hp] at hkeeps
        | ok r => cases hr
    · unfold encodeSuccess
      simp only [hp]
      split
      · exact settles_none rfl
      · exact encodeReserving_exec response produces _ _
  · intro response produces suppressBody maxBody budget id hp
    exact encodeSuccess_leavesButPermit response produces suppressBody maxBody budget hp

/-! ## A failed encoding returns its permit -/

/-- Budgets of eight bytes. -/
def eightBytes : Nat → Fin Usize.size := fun _ => ⟨8, by decide +kernel⟩

/-- A response whose five bytes have the permit 0. -/
def fiveBytes : Response := ⟨⟨200, by decide⟩, .empty, ⟨[1, 2, 3, 4, 5], some 0⟩⟩

/-- Serialized into five bytes, sent with a limit of four. -/
def encodesFive : Prog (Except Error HttpResponse) :=
  .tryReserve 0 5 fun _ => encodeSuccess fiveBytes "application/json".toList false 4 0

def encodesFiveStart : List (Event (Prog (Except Error HttpResponse)) TaskAction) :=
  [.spawn encodesFive, .act 0 .run, .act 0 .run]

unseal Lib.Usize.size in
theorem encodesFive_start :
    ((budgets _ eightBytes).run encodesFiveStart).threads[0]? =
      some ⟨[0], .ready (encodeSuccess fiveBytes "application/json".toList false 4 0)⟩ := by
  rfl

unseal Lib.Usize.size in
theorem encodesFive_end :
    ((budgets _ eightBytes).run (encodesFiveStart ++ [TaskAction.run, .run].map (.act 0))).threads[0]? =
      some ⟨[], .ready (.pure (.error responseTooLarge))⟩ := by
  rfl

unseal Lib.Usize.size in
theorem encodesFive_permit :
    ((budgets _ eightBytes).run encodesFiveStart).shared.permits[0]? = some ⟨0, 5, 1, true⟩ := by
  rfl

theorem encodesFive_used :
    ((budgets _ eightBytes).run encodesFiveStart).shared.used 0 = 5 ∧
    ((budgets _ eightBytes).run (encodesFiveStart ++ [TaskAction.run, .run].map (.act 0))).shared.used 0 = 0 := by
  decide +kernel

/-- The response of five bytes is refused and its permit returned, so the used
bytes are not those of before. -/
theorem encodeSuccess_returns_permit :
    ¬ LeavesAsBefore eightBytes
      (encodeSuccess fiveBytes "application/json".toList false 4 0)
      fun r => resultPermit (fun r => r.body.permit) r = none := by
  intro h
  have hused := (h encodesFiveStart 0 [0] encodesFive_start).2 [.run, .run] _ _ encodesFive_end rfl
  have := congrFun hused 0
  rw [(encodesFive_used).1, (encodesFive_used).2] at this
  cases this

theorem byteBudget_conserved_five :
    ((budgets _ eightBytes).run (encodesFiveStart ++ [TaskAction.run, .run].map (.act 0))).shared.used
        0 + 5 = ((budgets _ eightBytes).run encodesFiveStart).shared.used 0 := by
  have h := (byteBudget_conserved eightBytes).2.2.2.2.2 fiveBytes "application/json".toList false
    4 0 0 rfl encodesFiveStart 0 [0] ⟨0, 5, 1, true⟩ encodesFive_start List.mem_cons_self
    encodesFive_permit
  obtain ⟨kept, hkept, hb⟩ := h.2 [.run, .run] _ _ encodesFive_end
  have hzero : kept = 0 := hkept.resolve_right fun h => h.2 rfl
  have := hb 0
  rwa [if_pos ⟨rfl, rfl⟩, if_pos rfl, hzero] at this

end Fusen.Wire
