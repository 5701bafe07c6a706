import Fusen.Client.Subscription

/-!
# What the discovery supervisor does to the directory

`Forwards` lists what a step does to the directory, the stale deadline and the
membership while the directory's revision is not used up, and `Panics` what a deadline
behind the last instant leaves; `DirectoryForwarder.Sound` is what the former keep.
`Inv` adds the generations, and `inv_run` is its induction over whole runs.
-/

namespace Fusen.Client

open Lib Register

/-! ## The forwarder -/

/-- The endpoints the breakers have for the selector. -/
def EndpointBreakers.membership (s : EndpointBreakers) (selector : ServiceSelector) :
    List DiscoveryEndpoint :=
  (Assoc.get s.memberships.owners selector).getD []

theorem EndpointBreakers.membership_replaceDiscovery (s : EndpointBreakers)
    (selector : ServiceSelector) (instances : List ServiceInstance) :
    (s.replaceDiscovery selector instances).membership selector =
      endpointSet selector instances := by
  unfold membership replaceDiscovery
  simp [Assoc.get_upsert]

/-- What the others do leaves the owner of a selector alone. -/
theorem EndpointBreakers.owner_step {s : EndpointBreakers} {event : BreakersEvent}
    {selector : ServiceSelector} (h : event.changes selector = false) :
    Assoc.get (s.step event).memberships.owners selector =
      Assoc.get s.memberships.owners selector := by
  cases event with
  | replaceDiscovery other instances =>
    have hne : selector ≠ other := by
      rintro rfl
      simp [BreakersEvent.changes] at h
    simp [step, replaceDiscovery, Assoc.get_upsert, Assoc.get_remove, hne]
  | removeDiscovery other =>
    have hne : selector ≠ other := by
      rintro rfl
      simp [BreakersEvent.changes] at h
    simp [step, removeDiscovery, Assoc.get_remove, hne]
  | lookup key now tie =>
    simp only [step, getOrInsertObserved]
    split <;> rfl

theorem EndpointBreakers.owner_removeDiscovery (s : EndpointBreakers)
    (selector : ServiceSelector) :
    Assoc.get (s.removeDiscovery selector).memberships.owners selector = none := by
  simp [removeDiscovery, Assoc.get_remove]

namespace DirectoryForwarder

/-- The directory may be routed. -/
def Routable (f : DirectoryForwarder) : Prop := f.directory = .ready ∨ f.directory = .stale

/-- A slot that says so has a routable directory. -/
def Routed (f : DirectoryForwarder) : Prop := f.state = .ready ∨ f.state = .stale → f.Routable

/-- The deadline is armed exactly while the directory is stale, and the membership is
the endpoints of the latest snapshot. -/
structure Sound (selector : ServiceSelector) (f : DirectoryForwarder) : Prop where
  deadline : f.staleDeadline.isSome = true ↔ f.directory = .stale
  membership : f.endpointBreakers.membership selector =
    EndpointBreakers.endpointSet selector f.publisher.snapshot.instances
  routed : f.Routed
  running : f.directory ≠ .closed

/-- What one step does, other than to the state of the slot, where `delivered` is the
provider's snapshot it forwards. -/
inductive Forwards (selector : ServiceSelector) (now maxStaleness lastInstant : Nat)
    (delivered : Option (DirectorySnapshot ServiceInstance)) (f f' : DirectoryForwarder) :
    Prop where
  | keep (hp : f'.publisher = f.publisher) (hd : f'.staleDeadline = f.staleDeadline)
      (hb : Assoc.get f'.endpointBreakers.memberships.owners selector =
        Assoc.get f.endpointBreakers.memberships.owners selector)
  | ready (snapshot : DirectorySnapshot ServiceInstance) (hdelivered : delivered = some snapshot)
      (hready : snapshot.state = .ready)
      (hp : f'.publisher = f.publisher.send .ready snapshot.instances)
      (hd : f'.staleDeadline = none)
      (hb : f'.endpointBreakers = f.endpointBreakers.replaceDiscovery selector snapshot.instances)
  | stale (instances : List ServiceInstance) (hroutable : f.Routable)
      (hp : f'.publisher = f.publisher.send .stale instances)
      (hd : f'.staleDeadline = some (f.staleDeadline.getD (now + maxStaleness)))
      (hlast : f.staleDeadline = none → now + maxStaleness ≤ lastInstant)
      (hb : f'.endpointBreakers = f.endpointBreakers.replaceDiscovery selector instances)
  | mark (hready : f.directory = .ready)
      (hp : f'.publisher = f.publisher.send .stale f.publisher.snapshot.instances)
      (hd : f'.staleDeadline = some (f.staleDeadline.getD (now + maxStaleness)))
      (hlast : f.staleDeadline = none → now + maxStaleness ≤ lastInstant)
      (hb : f'.endpointBreakers = f.endpointBreakers)
  | unavailable (instances : List ServiceInstance)
      (hp : f'.publisher = f.publisher.send .unavailable instances)
      (hd : f'.staleDeadline = none)
      (hb : f'.endpointBreakers = f.endpointBreakers.replaceDiscovery selector instances)
  | down (hp : f'.publisher = f.publisher.send .unavailable f.publisher.snapshot.instances)
      (hd : f'.staleDeadline = none) (hb : f'.endpointBreakers = f.endpointBreakers)

/-- What a panic leaves: the directory is stale, without a deadline, and the slot does not
say so. -/
structure Panics (selector : ServiceSelector) (now maxStaleness lastInstant : Nat)
    (f f' : DirectoryForwarder) : Prop where
  late : lastInstant < now + maxStaleness
  ready : f.directory = .ready
  stale : f'.directory = .stale
  membership : f'.endpointBreakers.membership selector =
    EndpointBreakers.endpointSet selector f'.publisher.snapshot.instances

/-- How an operation ends, with a slot that says of the directory what is so. -/
def Ends (selector : ServiceSelector) (now maxStaleness lastInstant : Nat)
    (delivered : Option (DirectorySnapshot ServiceInstance)) (f : DirectoryForwarder)
    (result : Except DirectoryForwarder DirectoryForwarder) : Prop :=
  (left result).Routed ∧
    match result with
    | .ok f' => Forwards selector now maxStaleness lastInstant delivered f f'
    | .error f' => Panics selector now maxStaleness lastInstant f f'

section Forwards

variable {selector : ServiceSelector} {now maxStaleness lastInstant : Nat}
  {delivered : Option (DirectorySnapshot ServiceInstance)} {f f' : DirectoryForwarder}

theorem Forwards.sound (h : Forwards selector now maxStaleness lastInstant delivered f f')
    (hf : f.Sound selector) (hrouted : f'.Routed) : f'.Sound selector := by
  cases h with
  | keep hp hd hb =>
    refine ⟨?_, ?_, hrouted, ?_⟩
    · rw [hd, directory, hp]
      exact hf.deadline
    · rw [hp, EndpointBreakers.membership, hb]
      exact hf.membership
    · rw [directory, hp]
      exact hf.running
  | ready snapshot hdelivered hready hp hd hb =>
    refine ⟨?_, ?_, hrouted, ?_⟩ <;>
      simp [directory, hp, hd, hb, EndpointBreakers.membership_replaceDiscovery]
  | stale instances hroutable hp hd hlast hb =>
    refine ⟨?_, ?_, hrouted, ?_⟩ <;>
      simp [directory, hp, hd, hb, EndpointBreakers.membership_replaceDiscovery]
  | mark hready hp hd hlast hb =>
    refine ⟨?_, ?_, hrouted, ?_⟩ <;> simp [directory, hp, hd, hb, hf.membership]
  | unavailable instances hp hd hb =>
    refine ⟨?_, ?_, hrouted, ?_⟩ <;>
      simp [directory, hp, hd, hb, EndpointBreakers.membership_replaceDiscovery]
  | down hp hd hb =>
    refine ⟨?_, ?_, hrouted, ?_⟩ <;> simp [directory, hp, hd, hb, hf.membership]

theorem Sound.deadline_of_ready (hf : f.Sound selector) (hready : f.directory = .ready) :
    f.staleDeadline = none := by
  rw [← Option.not_isSome_iff_eq_none, hf.deadline, hready]
  decide

/-- **The deadline of a stale directory** is the one it had, or was armed when the directory
stopped being ready. -/
theorem Forwards.stale_deadline
    (h : Forwards selector now maxStaleness lastInstant delivered f f') (hf : f.Sound selector)
    (hstale : f'.directory = .stale) :
    f.directory = .stale ∧ f'.staleDeadline = f.staleDeadline ∨
      f.directory = .ready ∧ now + maxStaleness ≤ lastInstant ∧
        f'.staleDeadline = some (now + maxStaleness) := by
  have harm : f'.staleDeadline = some (f.staleDeadline.getD (now + maxStaleness)) →
      (f.staleDeadline = none → now + maxStaleness ≤ lastInstant) → f.Routable →
      f.directory = .stale ∧ f'.staleDeadline = f.staleDeadline ∨
        f.directory = .ready ∧ now + maxStaleness ≤ lastInstant ∧
          f'.staleDeadline = some (now + maxStaleness) := by
    rintro hd hlast (hready | hs)
    · have hnone := hf.deadline_of_ready hready
      refine .inr ⟨hready, hlast hnone, ?_⟩
      rw [hd, hnone]
      rfl
    · obtain ⟨d, hdeadline⟩ := Option.isSome_iff_exists.mp (hf.deadline.mpr hs)
      refine .inl ⟨hs, ?_⟩
      rw [hd, hdeadline]
      rfl
  cases h with
  | keep hp hd hb =>
    rw [directory, hp] at hstale
    exact .inl ⟨hstale, hd⟩
  | stale instances hroutable hp hd hlast hb => exact harm hd hlast hroutable
  | mark hready hp hd hlast hb => exact harm hd hlast (.inl hready)
  | ready snapshot hdelivered hready hp | unavailable instances hp | down hp =>
    rw [directory, hp] at hstale
    cases hstale

/-- The directory becomes ready with a ready snapshot of the provider's only. -/
theorem Forwards.ready_of (h : Forwards selector now maxStaleness lastInstant delivered f f')
    (hready : f'.directory = .ready) :
    f.directory = .ready ∨ ∃ snapshot, delivered = some snapshot ∧ snapshot.state = .ready := by
  cases h with
  | keep hp =>
    rw [directory, hp] at hready
    exact .inl hready
  | ready snapshot hdelivered hstate => exact .inr ⟨snapshot, hdelivered, hstate⟩
  | stale instances hroutable hp | mark hready' hp | unavailable instances hp | down hp =>
    rw [directory, hp] at hready
    cases hready

/-! ### The operations -/

theorem Forwards.send (h : Forwards selector now maxStaleness lastInstant delivered f f')
    (state : SlotState) :
    Forwards selector now maxStaleness lastInstant delivered f (f'.send state) := by
  cases h with
  | keep hp hd hb => exact .keep hp hd hb
  | ready snapshot hdelivered hready hp hd hb => exact .ready snapshot hdelivered hready hp hd hb
  | stale instances hroutable hp hd hlast hb => exact .stale instances hroutable hp hd hlast hb
  | mark hready hp hd hlast hb => exact .mark hready hp hd hlast hb
  | unavailable instances hp hd hb => exact .unavailable instances hp hd hb
  | down hp hd hb => exact .down hp hd hb

theorem forwards_send (f : DirectoryForwarder) (state : SlotState) :
    Forwards selector now maxStaleness lastInstant delivered f (f.send state) := .keep rfl rfl rfl

/-- A slot that is neither ready nor stale says nothing about the directory. -/
theorem routed_send {state : SlotState} (h : state ≠ .ready ∧ state ≠ .stale) :
    (f.send state).Routed := by
  rintro (hs | hs)
  · exact absurd hs h.1
  · exact absurd hs h.2

theorem Ends.ok (h : Forwards selector now maxStaleness lastInstant delivered f f')
    (hrouted : f'.Routed) : Ends selector now maxStaleness lastInstant delivered f (.ok f') :=
  ⟨hrouted, h⟩

theorem Ends.send {result : Except DirectoryForwarder DirectoryForwarder} {state : SlotState}
    (h : Ends selector now maxStaleness lastInstant delivered f result)
    (hstate : state ≠ .ready ∧ state ≠ .stale) :
    Ends selector now maxStaleness lastInstant delivered f (result.map (·.send state)) := by
  cases result with
  | ok f' => exact .ok (Forwards.send h.2 state) (routed_send hstate)
  | error f' => exact h

theorem arm_eq (f : DirectoryForwarder) (now maxStaleness lastInstant : Nat) :
    f.arm now maxStaleness lastInstant =
      if f.staleDeadline = none → now + maxStaleness ≤ lastInstant then
        .ok { f with staleDeadline := some (f.staleDeadline.getD (now + maxStaleness)) }
      else .error f := by
  obtain ⟨publisher, state, endpointBreakers, staleDeadline⟩ := f
  cases staleDeadline <;> simp [arm]

/-- A directory that has become stale behind the last instant. -/
theorem panics_of_ready {f' : DirectoryForwarder} (hf : f.Sound selector)
    (hroutable : f.Routable) {instances : List ServiceInstance}
    (hdeadline : ¬ (f.staleDeadline = none → now + maxStaleness ≤ lastInstant))
    (hp : f'.publisher = f.publisher.send .stale instances)
    (hb : f'.endpointBreakers.membership selector =
      EndpointBreakers.endpointSet selector instances) :
    Panics selector now maxStaleness lastInstant f f' ∧ f'.Routed := by
  have hnone := Classical.not_imp.mp hdeadline
  have hdirectory : f'.directory = .stale := by
    rw [directory, hp]
    rfl
  refine ⟨⟨Nat.lt_of_not_le hnone.2, ?_, hdirectory, ?_⟩, fun _ => .inr hdirectory⟩
  · refine hroutable.resolve_right fun hstale => ?_
    have hsome := hf.deadline.mpr hstale
    rw [hnone.1] at hsome
    cases hsome
  · rw [hp]
    exact hb

section Operations

variable (hrevision : f.publisher.revision + 1 < Usize.size)

include hrevision

theorem publish_eq {state : DirectoryState} (hstate : ¬ (state = .initializing ∨ state = .closed))
    (instances : Option (List ServiceInstance)) :
    f.publish state instances =
      { f with
        publisher := f.publisher.send state (instances.getD f.publisher.snapshot.instances) } := by
  unfold publish
  rw [DirectoryPublisher.publish_eq hrevision hstate]

theorem replace_eq {state : DirectoryState} (hstate : ¬ (state = .initializing ∨ state = .closed))
    (selector : ServiceSelector) (instances : List ServiceInstance) :
    f.replace selector state instances =
      { f with
        publisher := f.publisher.send state instances
        endpointBreakers := f.endpointBreakers.replaceDiscovery selector instances } := by
  unfold replace
  rw [publish_eq (by exact hrevision) hstate]
  rfl

theorem ends_markDisconnected (hf : f.Sound selector) :
    Ends selector now maxStaleness lastInstant delivered f
      (f.markDisconnected now maxStaleness lastInstant) := by
  unfold markDisconnected publishState
  split
  · rename_i hready
    rw [publish_eq hrevision (by decide), arm_eq]
    split
    · rename_i hlast
      exact .ok (.mark hready rfl rfl hlast rfl) fun _ => .inr rfl
    · rename_i hlate
      refine And.symm ?_
      exact panics_of_ready hf (.inl hready) hlate rfl hf.membership
  · rename_i hstale
    obtain ⟨d, hd⟩ := Option.isSome_iff_exists.mp (hf.deadline.mpr hstale)
    rw [arm_eq, if_pos (by simp [hd])]
    refine .ok (.keep rfl ?_ rfl) fun _ => .inr hstale
    show some (f.staleDeadline.getD _) = f.staleDeadline
    rw [hd]
    rfl
  · rename_i hinitial
    rw [publish_eq hrevision (by decide)]
    refine .ok (.down rfl ?_ rfl) (routed_send ⟨nofun, nofun⟩)
    show f.staleDeadline = none
    rw [← Option.not_isSome_iff_eq_none, hf.deadline, hinitial]
    decide
  · exact .ok (.keep rfl rfl rfl) hf.routed
  · exact .ok (.keep rfl rfl rfl) hf.routed

theorem ends_updateSnapshot (hf : f.Sound selector)
    (snapshot : DirectorySnapshot ServiceInstance) :
    Ends selector now maxStaleness lastInstant (some snapshot) f
      (f.updateSnapshot selector now maxStaleness lastInstant snapshot) := by
  have hdown : Forwards selector now maxStaleness lastInstant (some snapshot) f
      ((f.replace selector .unavailable snapshot.instances).disarm.send .unavailable) := by
    rw [replace_eq hrevision (by decide)]
    exact .unavailable snapshot.instances rfl rfl rfl
  unfold updateSnapshot
  split
  · rename_i hready
    rw [replace_eq hrevision (by decide)]
    exact .ok (.ready snapshot rfl hready rfl rfl rfl) fun _ => .inl rfl
  · split
    · rename_i hroutable
      rw [replace_eq hrevision (by decide), arm_eq]
      split
      · rename_i hlast
        exact .ok (.stale snapshot.instances hroutable rfl rfl hlast rfl) fun _ => .inr rfl
      · rename_i hlate
        refine And.symm ?_
        exact panics_of_ready hf hroutable hlate rfl
          (EndpointBreakers.membership_replaceDiscovery _ _ _)
    · exact .ok hdown (routed_send (by decide))
  · exact .ok hdown (routed_send (by decide))
  · exact ends_markDisconnected hrevision hf
  · exact .ok (.keep rfl rfl rfl) hf.routed

theorem forwards_expireStale (hf : f.Sound selector) (hdeadline : f.staleDeadline.isSome = true) :
    Forwards selector now maxStaleness lastInstant delivered f f.expireStale ∧
      f.expireStale.Routed := by
  have hstale := hf.deadline.mp hdeadline
  unfold expireStale publishState
  rw [if_neg (by simp [hstale]), publish_eq hrevision (by decide)]
  dsimp only
  split
  · exact ⟨.down rfl rfl rfl, routed_send ⟨nofun, nofun⟩⟩
  · rename_i hslot
    exact ⟨.down rfl rfl rfl, fun h => absurd h hslot⟩

theorem forwards_setProviderFailure (hf : f.Sound selector) (e : RegistryError) :
    Forwards selector now maxStaleness lastInstant delivered f (f.setProviderFailure e) ∧
      (f.setProviderFailure e).Routed := by
  unfold setProviderFailure publishState
  split
  · rename_i hstale
    exact ⟨.keep rfl rfl rfl, fun _ => .inr hstale⟩
  · split
    · rename_i hstale hinitial
      rw [publish_eq hrevision (by decide)]
      refine ⟨.down rfl ?_ rfl, routed_send ⟨nofun, nofun⟩⟩
      show f.staleDeadline = none
      rw [← Option.not_isSome_iff_eq_none, hf.deadline]
      exact hstale
    · exact ⟨.keep rfl rfl rfl, routed_send ⟨nofun, nofun⟩⟩

end Operations

theorem forwards_setRetryingState (f : DirectoryForwarder) :
    Forwards selector now maxStaleness lastInstant delivered f f.setRetryingState ∧
      f.setRetryingState.Routed := by
  unfold setRetryingState
  split
  · exact ⟨forwards_send f _, routed_send (by decide)⟩
  · rename_i hready
    exact ⟨forwards_send f _, fun _ => .inl hready⟩
  · rename_i hstale
    exact ⟨forwards_send f _, fun _ => .inr hstale⟩
  · exact ⟨forwards_send f _, routed_send (by decide)⟩
  · exact ⟨forwards_send f _, routed_send (by decide)⟩

end Forwards

end DirectoryForwarder

/-! ## The generations -/

theorem map_modify_of {α β : Type*} {g : α → β} {f : α → α} (hf : ∀ x, g (f x) = g x) (l : List α)
    (i : Nat) : (l.modify i f).map g = l.map g := by
  induction l generalizing i with
  | nil => simp
  | cons x l ih =>
    cases i with
    | zero => simp [hf]
    | succ i => simp [ih]

theorem map_modify_last {α β : Type*} {g : α → β} {f : α → α} {b : β} (hf : ∀ x, g (f x) = b)
    {l : List α} {flags : List β} {c : β} (h : l.map g = flags ++ [c]) :
    (l.modify (l.length - 1) f).map g = flags ++ [b] := by
  induction l generalizing flags with
  | nil => simp at h
  | cons x l ih =>
    cases flags with
    | nil =>
      obtain rfl : l = [] := by simpa using (List.cons.inj h).2
      simp [hf]
    | cons d flags =>
      obtain ⟨rfl, hrest⟩ := List.cons.inj h
      have hpos : l ≠ [] := by
        rintro rfl
        simp at hrest
      obtain ⟨n, hn⟩ := Nat.exists_eq_succ_of_ne_zero (List.length_pos_iff.mpr hpos).ne'
      have hlast := ih hrest
      rw [hn] at hlast
      simpa [hn] using hlast

theorem SupervisorPhase.running_of_awaits {phase : SupervisorPhase} (h : phase.awaits = true) :
    phase.running = true := by
  cases phase <;> first | rfl | cases h

namespace Supervisor

/-- All generations are closed, but for the last one where the supervisor has its handle. -/
def Generational (s : Supervisor) : Prop :=
  ∃ n, s.generations.map Generation.closed =
    List.replicate n true ++ if s.phase.hasOpen then [false] else []

variable {selector : ServiceSelector} {maxStaleness lastInstant : Nat} {s s' : Supervisor}

theorem Generational.open_le (h : s.Generational) :
    s.generations.countP (fun g => !g.closed) ≤ 1 := by
  obtain ⟨n, hn⟩ := h
  have hcount : s.generations.countP (fun g => !g.closed) =
      (s.generations.map Generation.closed).countP (fun b => !b) := by
    rw [List.countP_map]
    rfl
  have hclosed : (List.replicate n true).countP (fun b => !b) = 0 :=
    List.countP_eq_zero.mpr fun b hb => by simp [List.eq_of_mem_replicate hb]
  rw [hcount, hn, List.countP_append, hclosed]
  split <;> simp

theorem Generational.all_closed (h : s.Generational) (hphase : s.phase.hasOpen = false) :
    ∀ g ∈ s.generations, g.closed = true := by
  obtain ⟨n, hn⟩ := h
  rw [hphase, if_neg (by decide), List.append_nil] at hn
  intro g hg
  have hmem : g.closed ∈ s.generations.map Generation.closed := List.mem_map_of_mem hg
  rw [hn] at hmem
  exact List.eq_of_mem_replicate hmem

theorem Generational.closeCurrent (h : s.Generational) (hphase : s.phase.hasOpen = true) :
    ∃ n, s.closeCurrent.generations.map Generation.closed = List.replicate n true := by
  obtain ⟨n, hn⟩ := h
  rw [hphase, if_pos rfl] at hn
  refine ⟨n + 1, ?_⟩
  rw [List.replicate_succ']
  exact map_modify_last (f := fun g => { g with closed := true }) (fun _ => rfl) hn

/-- A step between phases of the same kind that leaves the generations alone. -/
theorem Generational.congr (h : s.Generational) (hg : s'.generations = s.generations)
    (hphase : s'.phase.hasOpen = s.phase.hasOpen) : s'.Generational := by
  obtain ⟨n, hn⟩ := h
  exact ⟨n, by rw [hg, hphase, hn]⟩

/-- What a step of the supervisor does to the generations and the updates. -/
inductive Proceeds (s s' : Supervisor) : Prop where
  | keep (hg : s'.generations = s.generations) (hphase : s'.phase.hasOpen = s.phase.hasOpen)
      (hu : s'.updates = s.updates)
  | prepare (seen : Nat) (hphase : s.phase.hasOpen = false)
      (hg : s'.generations = s.generations ++ [.prepared seen])
      (hphase' : s'.phase.hasOpen = true) (hu : s'.updates = s.updates)
  | update (hg : s'.generations = s.generations) (hphase : s.phase.hasOpen = true)
      (hphase' : s'.phase.hasOpen = true)
      (hu : s'.updates = (s.generations.length - 1) :: s.updates)
  | close (hphase : s.phase.hasOpen = true) (hg : s'.generations = s.closeCurrent.generations)
      (hphase' : s'.phase.hasOpen = false) (hu : s'.updates = s.updates)

theorem generations_finish (s : Supervisor) : (s.finish selector).generations = s.generations := by
  unfold finish
  dsimp only
  split <;> split <;> rfl

theorem updates_finish (s : Supervisor) : (s.finish selector).updates = s.updates := by
  unfold finish
  dsimp only
  split <;> split <;> rfl

theorem proceeds_attempt
    (operation : DirectoryForwarder → Except DirectoryForwarder DirectoryForwarder)
    {phase : SupervisorPhase} (h : s.phase.hasOpen = true) (h' : phase.hasOpen = true) :
    Proceeds s (s.attempt operation phase) := by
  refine .keep rfl ?_ rfl
  rw [h, attempt]
  dsimp only
  split
  · exact h'
  · rfl

theorem proceeds_update (snapshot : DirectorySnapshot ServiceInstance) {phase : SupervisorPhase}
    (h : s.phase.hasOpen = true) (h' : phase.hasOpen = true) :
    Proceeds s (s.update selector maxStaleness lastInstant snapshot phase) := by
  refine .update rfl h ?_ rfl
  rw [update, attempt]
  dsimp only
  split
  · exact h'
  · rfl

theorem proceeds_of_next {action : SupervisorAction}
    (h : s.next selector maxStaleness lastInstant action = some s') : Proceeds s s' := by
  revert h
  fun_cases Supervisor.next selector maxStaleness lastInstant s action <;> intro h <;> try cases h
  case case37.refl hending =>
    refine .keep (generations_finish s) ?_ (updates_finish s)
    rw [hending]
    rfl
  case case12.refl | case24.refl =>
    exact proceeds_update _ (by simp_all [SupervisorPhase.hasOpen]) rfl
  case case16.refl | case21.refl =>
    exact proceeds_attempt _ (by simp_all [SupervisorPhase.hasOpen]) rfl
  all_goals first
    | exact .keep rfl (by simp_all [SupervisorPhase.hasOpen, goto, forward, fail]) rfl
    | exact .prepare _ (by simp_all [SupervisorPhase.hasOpen]) rfl rfl rfl
    | exact .close (by simp_all [SupervisorPhase.hasOpen]) rfl rfl rfl

theorem Proceeds.generational (h : Proceeds s s') (hs : s.Generational) : s'.Generational := by
  cases h with
  | keep hg hphase => exact hs.congr hg hphase
  | prepare seen hphase hg hphase' =>
    obtain ⟨n, hn⟩ := hs
    rw [hphase, if_neg (by decide), List.append_nil] at hn
    refine ⟨n, ?_⟩
    rw [hg, hphase', if_pos rfl, List.map_append, hn]
    rfl
  | update hg hphase hphase' => exact hs.congr hg (hphase'.trans hphase.symm)
  | close hphase hg hphase' =>
    obtain ⟨n, hn⟩ := hs.closeCurrent hphase
    refine ⟨n, ?_⟩
    rw [hg, hn, hphase', if_neg (by decide), List.append_nil]

/-! ## The directory -/

/-- The snapshot that a step of the supervisor forwards. -/
def delivered (s : Supervisor) : SupervisorAction → Option (DirectorySnapshot ServiceInstance)
  | .activated .ok | .read => s.current.map (·.publisher.snapshot)
  | _ => none

/-- What a step other than the last one does. -/
structure Steps (selector : ServiceSelector) (maxStaleness lastInstant : Nat)
    (action : SupervisorAction) (s s' : Supervisor) : Prop where
  now : s'.now = s.now
  retained : s'.retained = s.retained
  terminal : s'.terminalState = s.terminalState ∨
    s'.terminalState ≠ .ready ∧ s'.terminalState ≠ .stale
  routed : s'.forwarder.Routed
  forwards :
    s'.phase.running = true ∧ s.forwarder.Forwards selector s.now maxStaleness lastInstant
        (s.delivered action) s'.forwarder ∨
      s'.phase = .panicked ∧
        s.forwarder.Panics selector s.now maxStaleness lastInstant s'.forwarder

theorem Steps.of_forwards {action : SupervisorAction} (hrunning : s'.phase.running = true)
    (hnow : s'.now = s.now) (hretained : s'.retained = s.retained)
    (hterminal : s'.terminalState = s.terminalState ∨
      s'.terminalState ≠ .ready ∧ s'.terminalState ≠ .stale)
    (h : s.forwarder.Forwards selector s.now maxStaleness lastInstant (s.delivered action)
        s'.forwarder ∧ s'.forwarder.Routed) :
    Steps selector maxStaleness lastInstant action s s' :=
  ⟨hnow, hretained, hterminal, h.2, .inl ⟨hrunning, h.1⟩⟩

theorem steps_attempt {action : SupervisorAction}
    {operation : DirectoryForwarder → Except DirectoryForwarder DirectoryForwarder}
    {phase : SupervisorPhase} (hphase : phase.running = true)
    (h : s.forwarder.Ends selector s.now maxStaleness lastInstant (s.delivered action)
      (operation s.forwarder)) :
    Steps selector maxStaleness lastInstant action s (s.attempt operation phase) := by
  refine ⟨rfl, rfl, .inl rfl, h.1, ?_⟩
  unfold DirectoryForwarder.Ends at h
  unfold attempt
  dsimp only
  cases hresult : operation s.forwarder with
  | ok f' =>
    rw [hresult] at h
    exact .inl ⟨hphase, h.2⟩
  | error f' =>
    rw [hresult] at h
    exact .inr ⟨rfl, h.2⟩

theorem steps_update {action : SupervisorAction} {g : Generation} {phase : SupervisorPhase}
    (hrevision : s.forwarder.publisher.revision + 1 < Usize.size)
    (hf : s.forwarder.Sound selector) (hphase : phase.running = true)
    (hdelivered : s.delivered action = some g.publisher.snapshot) :
    Steps selector maxStaleness lastInstant action s
      (s.update selector maxStaleness lastInstant g.publisher.snapshot phase) := by
  have hsteps : Steps selector maxStaleness lastInstant action s (s.attempt
      (·.updateSnapshot selector s.now maxStaleness lastInstant g.publisher.snapshot) phase) := by
    refine steps_attempt hphase ?_
    rw [hdelivered]
    exact DirectoryForwarder.ends_updateSnapshot hrevision hf _
  exact ⟨hsteps.now, hsteps.retained, hsteps.terminal, hsteps.routed, hsteps.forwards⟩

/-- A step other than the last one forwards something, or panics. -/
theorem steps_of_next {action : SupervisorAction}
    (hrevision : s.forwarder.publisher.revision + 1 < Usize.size)
    (hf : s.forwarder.Sound selector)
    (h : s.next selector maxStaleness lastInstant action = some s') :
    s.phase = .ending ∧ s' = s.finish selector ∨
      Steps selector maxStaleness lastInstant action s s' := by
  have hkeep : s.forwarder.Forwards selector s.now maxStaleness lastInstant (s.delivered action)
      s.forwarder ∧ s.forwarder.Routed := ⟨.keep rfl rfl rfl, hf.routed⟩
  revert h
  fun_cases Supervisor.next selector maxStaleness lastInstant s action <;> intro h <;> try cases h
  case case37.refl hending => exact .inl ⟨hending, rfl⟩
  all_goals right
  case case9.refl e | case14.refl e =>
    exact .of_forwards rfl rfl rfl (.inl rfl)
      (DirectoryForwarder.forwards_setProviderFailure hrevision hf e)
  case case12.refl g hcurrent | case24.refl g hcurrent hreading =>
    refine steps_update hrevision hf rfl ?_
    rw [delivered, hcurrent]
    rfl
  case case16.refl =>
    exact steps_attempt rfl
      ((DirectoryForwarder.ends_markDisconnected hrevision hf).send ⟨nofun, nofun⟩)
  case case21.refl =>
    exact steps_attempt rfl (DirectoryForwarder.ends_markDisconnected hrevision hf)
  case case33.refl =>
    exact .of_forwards rfl rfl rfl (.inl rfl)
      (DirectoryForwarder.forwards_setRetryingState s.forwarder)
  case case34.refl hdeadline hawaits =>
    refine .of_forwards ?_ rfl rfl (.inl rfl)
      (DirectoryForwarder.forwards_expireStale hrevision hf (by rw [hdeadline]; rfl))
    exact SupervisorPhase.running_of_awaits hawaits.1
  case case17.refl =>
    exact .of_forwards rfl rfl rfl (.inl rfl)
      ⟨DirectoryForwarder.forwards_send _ _, DirectoryForwarder.routed_send (by decide)⟩
  case case10.refl | case26.refl =>
    exact .of_forwards rfl rfl rfl (.inr ⟨nofun, nofun⟩)
      ⟨DirectoryForwarder.forwards_send _ _, DirectoryForwarder.routed_send ⟨nofun, nofun⟩⟩
  -- the others do not touch the forwarder
  all_goals exact .of_forwards rfl rfl rfl (.inl rfl) hkeep

/-! ## The revision -/

end Supervisor

namespace DirectoryForwarder

variable {selector : ServiceSelector} {now maxStaleness lastInstant : Nat} (f : DirectoryForwarder)

theorem revision_le_publish (state : DirectoryState) (instances : Option (List ServiceInstance)) :
    f.publisher.revision ≤ (f.publish state instances).publisher.revision := by
  unfold publish
  split
  · rename_i hpublish
    rw [DirectoryPublisher.revision_of_publish hpublish]
    exact Nat.le_succ _
  · exact Nat.le_refl _

theorem revision_le_replace (state : DirectoryState) (instances : List ServiceInstance) :
    f.publisher.revision ≤ (f.replace selector state instances).publisher.revision :=
  revision_le_publish
    { f with endpointBreakers := f.endpointBreakers.replaceDiscovery selector instances } _ _

@[simp] theorem publisher_send (state : SlotState) : (f.send state).publisher = f.publisher := rfl

@[simp] theorem publisher_disarm : f.disarm.publisher = f.publisher := rfl

@[simp] theorem left_ok : left (.ok f) = f := rfl

@[simp] theorem publisher_left_arm :
    (left (f.arm now maxStaleness lastInstant)).publisher = f.publisher := by
  rw [arm_eq]
  split <;> rfl

/-- The slot's state is no part of what is published. -/
@[simp] theorem publisher_left_map_send (result : Except DirectoryForwarder DirectoryForwarder)
    (state : SlotState) :
    (left (result.map (·.send state))).publisher = (left result).publisher := by
  cases result <;> rfl

theorem revision_le_markDisconnected :
    f.publisher.revision ≤
      (left (f.markDisconnected now maxStaleness lastInstant)).publisher.revision := by
  unfold markDisconnected publishState
  split <;> simp [revision_le_publish]

theorem revision_le_updateSnapshot (snapshot : DirectorySnapshot ServiceInstance) :
    f.publisher.revision ≤ (left
      (f.updateSnapshot selector now maxStaleness lastInstant snapshot)).publisher.revision := by
  unfold updateSnapshot
  split
  · simp [revision_le_replace]
  · split <;> simp [revision_le_replace]
  · simp [revision_le_replace]
  · exact revision_le_markDisconnected f
  · exact Nat.le_refl _

theorem revision_le_expireStale : f.publisher.revision ≤ f.expireStale.publisher.revision := by
  unfold expireStale publishState
  split
  · simp
  · dsimp only
    split <;> simp [revision_le_publish]

theorem revision_le_setProviderFailure (e : RegistryError) :
    f.publisher.revision ≤ (f.setProviderFailure e).publisher.revision := by
  unfold setProviderFailure publishState
  split
  · simp
  · split <;> simp [revision_le_publish]

theorem revision_le_setRetryingState :
    f.publisher.revision ≤ f.setRetryingState.publisher.revision := by
  unfold setRetryingState
  split <;> simp

end DirectoryForwarder

namespace Supervisor

variable {selector : ServiceSelector} {maxStaleness lastInstant : Nat} {s s' : Supervisor}

/-- The revision of the directory. -/
def revision (s : Supervisor) : Nat := s.forwarder.publisher.revision

theorem revision_le_finish (s : Supervisor) : s.revision ≤ (s.finish selector).revision := by
  unfold finish
  dsimp only
  split <;> split
  · exact Nat.le_refl _
  · exact DirectoryPublisher.revision_le_dropped _
  · exact Nat.le_refl _
  · exact DirectoryPublisher.revision_le_dropped _

theorem revision_le_next {action : SupervisorAction}
    (h : s.next selector maxStaleness lastInstant action = some s') : s.revision ≤ s'.revision := by
  revert h
  fun_cases Supervisor.next selector maxStaleness lastInstant s action <;> intro h <;> try cases h
  case case37.refl => exact revision_le_finish s
  all_goals first
    | exact Nat.le_refl _
    | exact s.forwarder.revision_le_setProviderFailure _
    | exact s.forwarder.revision_le_updateSnapshot _
    | exact s.forwarder.revision_le_markDisconnected
    | exact s.forwarder.revision_le_markDisconnected.trans_eq
        (congrArg _ (DirectoryForwarder.publisher_left_map_send _ _).symm)
    | exact s.forwarder.revision_le_setRetryingState
    | exact s.forwarder.revision_le_expireStale

theorem revision_le_step (s : Supervisor) (event : SupervisorEvent) :
    s.revision ≤ (s.step selector maxStaleness lastInstant event).revision := by
  cases event with
  | act action =>
    simp only [step]
    cases hnext : s.next selector maxStaleness lastInstant action with
    | none => exact Nat.le_refl _
    | some s' => exact revision_le_next hnext
  | breakers event =>
    simp only [step]
    split <;> exact Nat.le_refl _
  | tick | shutdown | provide | endProvider => exact Nat.le_refl _

/-! ## Runs -/

/-- What a panic has left: a stale directory, the endpoints of its instances, and a deadline
that is no instant. -/
structure Panicked (selector : ServiceSelector) (maxStaleness lastInstant : Nat)
    (s : Supervisor) : Prop where
  stale : s.forwarder.directory = .stale
  membership : s.forwarder.endpointBreakers.membership selector =
    EndpointBreakers.endpointSet selector s.forwarder.publisher.snapshot.instances
  late : lastInstant < s.now + maxStaleness

/-- What every reachable state keeps as long as the revision is not used up. -/
structure Inv (selector : ServiceSelector) (maxStaleness lastInstant : Nat)
    (s : Supervisor) : Prop where
  generational : s.Generational
  retained : s.phase.running = true → s.retained = true
  terminal : s.terminalState ≠ .ready ∧ s.terminalState ≠ .stale
  sound : s.phase.running = true → s.forwarder.Sound selector
  panicked : s.phase = .panicked → s.Panicked selector maxStaleness lastInstant
  routed : s.forwarder.Routed
  ended : s.phase = .ended → s.shutdown = true ∨
    Assoc.get s.forwarder.endpointBreakers.memberships.owners selector = none ∧
      s.forwarder.directory = .closed

/-- What the breakers have for the selector, as long as the loop has not come to its end. -/
theorem Inv.membership (hs : s.Inv selector maxStaleness lastInstant) (hphase : s.phase ≠ .ended) :
    s.forwarder.endpointBreakers.membership selector =
      EndpointBreakers.endpointSet selector s.forwarder.publisher.snapshot.instances := by
  cases hrunning : s.phase.running with
  | true => exact (hs.sound hrunning).membership
  | false =>
    refine (hs.panicked ?_).membership
    cases hcase : s.phase with
    | panicked => rfl
    | ended => exact absurd hcase hphase
    | top | activating | watching | reading | closing | reconnecting | ending =>
      rw [hcase] at hrunning
      cases hrunning

theorem inv_finish (hrevision : s.revision + 1 < Usize.size)
    (hs : s.Inv selector maxStaleness lastInstant) (hphase : s.phase = .ending) :
    (s.finish selector).Inv selector maxStaleness lastInstant := by
  have hretained := hs.retained (by rw [hphase]; rfl)
  have hended : (s.finish selector).phase = .ended := rfl
  have hgenerational : (s.finish selector).Generational := by
    refine hs.generational.congr (generations_finish s) ?_
    rw [hphase]
    rfl
  refine ⟨hgenerational, ?_, ?_, ?_, ?_, ?_, fun _ => ?_⟩
  · rw [hended]
    exact nofun
  · have hterminal : (s.finish selector).terminalState = s.terminalState := by
      unfold finish
      dsimp only
      split <;> split <;> rfl
    rw [hterminal]
    exact hs.terminal
  · rw [hended]
    exact nofun
  · rw [hended]
    exact nofun
  · have hstate : (s.finish selector).forwarder.state = s.terminalState := by
      unfold finish
      dsimp only
      split <;> split <;> rfl
    rintro (h | h)
    · exact absurd (hstate.symm.trans h) hs.terminal.1
    · exact absurd (hstate.symm.trans h) hs.terminal.2
  · cases hshutdown : s.shutdown with
    | true =>
      refine .inl ?_
      simp [finish, hshutdown, hretained, forward, goto]
    | false =>
      refine .inr ?_
      simp only [finish, forward, goto, hshutdown, Bool.false_eq_true, if_false]
      refine ⟨EndpointBreakers.owner_removeDiscovery _ _, ?_⟩
      rw [DirectoryForwarder.directory, DirectoryForwarder.publisher_send,
        DirectoryPublisher.dropped_eq hrevision]
      rfl

/-- A supervisor that has ended or panicked takes no further step. -/
theorem running_of_next {action : SupervisorAction}
    (h : s.next selector maxStaleness lastInstant action = some s') : s.phase.running = true := by
  have hphase : s.phase ≠ .ended ∧ s.phase ≠ .panicked := by
    constructor
    all_goals
      rintro hphase
      revert h
      fun_cases Supervisor.next selector maxStaleness lastInstant s action <;>
        simp_all [SupervisorPhase.awaits]
  cases hcase : s.phase with
  | ended => exact absurd hcase hphase.1
  | panicked => exact absurd hcase hphase.2
  | top | activating | watching | reading | closing | reconnecting | ending => rfl

theorem inv_next {action : SupervisorAction} (hrevision : s.revision + 1 < Usize.size)
    (hs : s.Inv selector maxStaleness lastInstant)
    (h : s.next selector maxStaleness lastInstant action = some s') :
    s'.Inv selector maxStaleness lastInstant := by
  have hrunning := running_of_next h
  have hsound := hs.sound hrunning
  rcases steps_of_next hrevision hsound h with ⟨hending, rfl⟩ | hstep
  · exact inv_finish hrevision hs hending
  · have hgenerational := (proceeds_of_next h).generational hs.generational
    have hretained : s'.retained = true := hstep.retained.trans (hs.retained hrunning)
    have hterminal : s'.terminalState ≠ .ready ∧ s'.terminalState ≠ .stale := by
      rcases hstep.terminal with heq | hne
      · rw [heq]
        exact hs.terminal
      · exact hne
    rcases hstep.forwards with ⟨hrunning', hforwards⟩ | ⟨hpanicked, hpanics⟩
    · refine ⟨hgenerational, fun _ => hretained, hterminal,
        fun _ => hforwards.sound hsound hstep.routed, fun hphase => ?_, hstep.routed,
        fun hphase => ?_⟩ <;>
      · rw [hphase] at hrunning'
        cases hrunning'
    · refine ⟨hgenerational, fun _ => hretained, hterminal, fun hphase => ?_,
        fun _ => ⟨hpanics.stale, hpanics.membership, ?_⟩, hstep.routed, fun hphase => ?_⟩
      · rw [hpanicked] at hphase
        cases hphase
      · rw [hstep.now]
        exact hpanics.late
      · rw [hpanicked] at hphase
        cases hphase

/-- What is done by others keeps the invariant. -/
theorem inv_step (hs : s.Inv selector maxStaleness lastInstant) (event : SupervisorEvent)
    (hrevision : (s.step selector maxStaleness lastInstant event).revision + 1 < Usize.size) :
    (s.step selector maxStaleness lastInstant event).Inv selector maxStaleness lastInstant := by
  have hprovider : ∀ generation f, (∀ g : Generation, (f g).closed = g.closed) →
      (s.provider generation f).Inv selector maxStaleness lastInstant := by
    intro generation f hf
    refine ⟨?_, hs.retained, hs.terminal, hs.sound, fun hphase => ?_, hs.routed, hs.ended⟩
    · obtain ⟨n, hn⟩ := hs.generational
      refine ⟨n, Eq.trans (map_modify_of (fun g => ?_) _ _) hn⟩
      split
      · rfl
      · exact hf g
    · have hpanicked := hs.panicked hphase
      exact ⟨hpanicked.stale, hpanicked.membership, hpanicked.late⟩
  cases event with
  | tick duration =>
    refine ⟨hs.generational, hs.retained, hs.terminal, hs.sound, fun hphase => ?_, hs.routed,
      hs.ended⟩
    have hpanicked := hs.panicked hphase
    refine ⟨hpanicked.stale, hpanicked.membership, Nat.lt_of_lt_of_le hpanicked.late ?_⟩
    exact Nat.add_le_add_right (Nat.le_add_right _ _) _
  | shutdown =>
    refine ⟨hs.generational, hs.retained, hs.terminal, hs.sound, fun hphase => ?_, hs.routed,
      fun _ => .inl rfl⟩
    have hpanicked := hs.panicked hphase
    exact ⟨hpanicked.stale, hpanicked.membership, hpanicked.late⟩
  | provide generation state instances =>
    refine hprovider generation _ fun g => ?_
    split <;> rfl
  | endProvider generation => exact hprovider generation _ fun g => rfl
  | breakers event =>
    simp only [step] at hrevision ⊢
    split
    · exact hs
    · rename_i hother
      have howner := EndpointBreakers.owner_step (s := s.forwarder.endpointBreakers)
        (by simpa using hother)
      have hmembership := congrArg (·.getD []) howner
      refine ⟨hs.generational, hs.retained, hs.terminal, fun hrunning => ?_, fun hphase => ?_,
        hs.routed, fun hended => ?_⟩
      · have hsound := hs.sound hrunning
        exact ⟨hsound.deadline, hmembership.trans hsound.membership, hsound.routed,
          hsound.running⟩
      · have hpanicked := hs.panicked hphase
        exact ⟨hpanicked.stale, hmembership.trans hpanicked.membership, hpanicked.late⟩
      · exact (hs.ended hended).imp id fun h => ⟨howner.trans h.1, h.2⟩
  | act action =>
    have hbefore := Nat.lt_of_le_of_lt (Nat.succ_le_succ (revision_le_step s (.act action))) hrevision
    simp only [step]
    cases hnext : s.next selector maxStaleness lastInstant action with
    | none => exact hs
    | some s' => exact inv_next hbefore hs hnext

end Supervisor

section Runs

variable (selector : ServiceSelector)
  (maxStaleness lastInstant now maxEntries idleEviction : Nat)

theorem inv_init :
    (supervisor selector maxStaleness lastInstant now maxEntries idleEviction).init.Inv
      selector maxStaleness lastInstant := by
  refine ⟨⟨0, rfl⟩, fun _ => rfl, ⟨nofun, nofun⟩, fun _ => ⟨?_, rfl, ?_, nofun⟩, nofun, ?_,
    nofun⟩
  · exact ⟨nofun, nofun⟩
  · exact fun h => h.elim nofun nofun
  · exact fun h => h.elim nofun nofun

/-- **Every run** whose revision is not used up keeps the invariant. -/
theorem inv_run (es : List SupervisorEvent) :
    ((supervisor selector maxStaleness lastInstant now maxEntries idleEviction).run es).revision +
          1 < Usize.size →
      ((supervisor selector maxStaleness lastInstant now maxEntries idleEviction).run es).Inv
        selector maxStaleness lastInstant :=
  (supervisor selector maxStaleness lastInstant now maxEntries idleEviction).invariant_of_bound
    (B := fun s => s.revision + 1 < Usize.size)
    (fun s e => Nat.lt_of_le_of_lt (Nat.succ_le_succ (s.revision_le_step e)))
    (inv_init selector maxStaleness lastInstant now maxEntries idleEviction)
    (fun _ e hs hb => Supervisor.inv_step hs e hb) es

end Runs

end Fusen.Client
