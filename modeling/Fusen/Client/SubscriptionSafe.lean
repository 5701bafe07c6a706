import Fusen.Client.SubscriptionRuns

/-!
# Staleness and generations of a discovery supervisor

`stale_bounded`: while the supervisor runs, a stale directory has its deadline, counted
from the moment the directory stopped being ready.  `generations_together`: generations,
directory, slot and membership agree.  Both hold as long as the 64-bit revision of the
directory is not used up: from then on publications are refused, and the forwarder takes
the deadline and the membership on nevertheless (`exhausted_unarmed`, `exhausted_apart`).
A deadline behind the last `Instant` is a panic, which leaves the directory stale and the
membership as it is for good (`panicked_run`, `unrepresentable_unarmed`).
-/

namespace Fusen.Client

open Lib Register

/-- What a supervisor is started with, and the last `Instant` there is. -/
structure Subscription where
  selector : ServiceSelector
  maxStaleness : Nat
  lastInstant : Nat
  now : Nat
  maxEntries : Nat
  idleEviction : Nat

namespace Subscription

variable (c : Subscription)

def machine : Machine Supervisor SupervisorEvent :=
  supervisor c.selector c.maxStaleness c.lastInstant c.now c.maxEntries c.idleEviction

/-- The state after the events `es`. -/
def run (es : List SupervisorEvent) : Supervisor := c.machine.run es

/-- The directory after the events `es`. -/
def directory (es : List SupervisorEvent) : DirectoryState := (c.run es).forwarder.directory

variable {c}

theorem run_concat (es : List SupervisorEvent) (e : SupervisorEvent) :
    c.run (es ++ [e]) = (c.run es).step c.selector c.maxStaleness c.lastInstant e :=
  c.machine.run_concat es e

theorem revision_le_run (es later : List SupervisorEvent) :
    (c.run es).revision ≤ (c.run (es ++ later)).revision :=
  c.machine.stable (J := fun _ => True) (I := fun s => (c.run es).revision ≤ s.revision)
    (fun _ => trivial) (fun s e _ h => h.trans (s.revision_le_step e)) (Nat.le_refl _) later

/-- The invariant holds of every earlier state, too. -/
theorem inv_before (es later : List SupervisorEvent)
    (h : (c.run (es ++ later)).revision + 1 < Usize.size) :
    (c.run es).Inv c.selector c.maxStaleness c.lastInstant :=
  inv_run c.selector c.maxStaleness c.lastInstant c.now c.maxEntries c.idleEviction es
    (Nat.lt_of_le_of_lt (Nat.succ_le_succ (revision_le_run es later)) h)

end Subscription

/-! ## One step -/

namespace Supervisor

variable {selector : ServiceSelector} {maxStaleness lastInstant : Nat} {s : Supervisor}

/-- The event forwards a ready snapshot of the provider. -/
def Delivers (selector : ServiceSelector) (maxStaleness lastInstant : Nat) (s : Supervisor)
    (event : SupervisorEvent) : Prop :=
  ∃ action snapshot, event = .act action ∧
    (s.next selector maxStaleness lastInstant action).isSome = true ∧
    s.delivered action = some snapshot ∧ snapshot.state = .ready

/-- The last step leaves the directory as it is, or closes it. -/
theorem directory_finish (hrevision : s.revision + 1 < Usize.size) :
    (s.finish selector).forwarder.staleDeadline = s.forwarder.staleDeadline ∧
      ((s.finish selector).forwarder.directory = s.forwarder.directory ∨
        (s.finish selector).forwarder.directory = .closed) := by
  have hdropped : (s.forwarder.publisher.dropped).snapshot.state = .closed := by
    rw [DirectoryPublisher.dropped_eq hrevision]
    rfl
  unfold finish
  dsimp only
  split <;> split
  · exact ⟨rfl, .inl rfl⟩
  · exact ⟨rfl, .inr hdropped⟩
  · exact ⟨rfl, .inl rfl⟩
  · exact ⟨rfl, .inr hdropped⟩

/-- **How the directory becomes stale or ready**: stale from ready, with a new deadline or
a panic, or from stale, with the same deadline; ready from ready or with a ready snapshot. -/
theorem directory_step (hs : s.Inv selector maxStaleness lastInstant) (event : SupervisorEvent)
    (hrevision : (s.step selector maxStaleness lastInstant event).revision + 1 < Usize.size) :
    ((s.step selector maxStaleness lastInstant event).forwarder.directory = .stale →
      s.forwarder.directory = .stale ∧
          (s.step selector maxStaleness lastInstant event).forwarder.staleDeadline =
            s.forwarder.staleDeadline ∨
        s.forwarder.directory = .ready ∧
          (s.now + maxStaleness ≤ lastInstant ∧
              (s.step selector maxStaleness lastInstant event).forwarder.staleDeadline =
                some (s.now + maxStaleness) ∨
            lastInstant < s.now + maxStaleness ∧
              (s.step selector maxStaleness lastInstant event).phase = .panicked)) ∧
    ((s.step selector maxStaleness lastInstant event).forwarder.directory = .ready →
      s.forwarder.directory = .ready ∨ Delivers selector maxStaleness lastInstant s event) := by
  have hbefore := Nat.lt_of_le_of_lt (Nat.succ_le_succ (revision_le_step s event)) hrevision
  cases event with
  | tick | shutdown | provide | endProvider => exact ⟨fun h => .inl ⟨h, rfl⟩, .inl⟩
  | breakers event =>
    simp only [step]
    split <;> exact ⟨fun h => .inl ⟨h, rfl⟩, .inl⟩
  | act action =>
    cases hnext : s.next selector maxStaleness lastInstant action with
    | none =>
      simp only [step, hnext, Option.getD_none]
      exact ⟨fun h => .inl ⟨h, trivial⟩, .inl⟩
    | some s' =>
      simp only [step, hnext, Option.getD_some]
      have hsound := hs.sound (running_of_next hnext)
      rcases steps_of_next hbefore hsound hnext with ⟨-, rfl⟩ | hstep
      · obtain ⟨hdeadline, hdirectory | hdirectory⟩ := @directory_finish selector s hbefore
        · rw [hdirectory, hdeadline]
          exact ⟨fun h => .inl ⟨h, rfl⟩, .inl⟩
        · rw [hdirectory]
          constructor <;> intro h <;> cases h
      · rcases hstep.forwards with ⟨-, hforwards⟩ | ⟨hpanicked, hpanics⟩
        · refine ⟨fun hstale => ?_, fun hready => ?_⟩
          · exact (hforwards.stale_deadline hsound hstale).imp id fun h => ⟨h.1, .inl h.2⟩
          · refine (hforwards.ready_of hready).imp id ?_
            rintro ⟨snapshot, hdelivered, hstate⟩
            exact ⟨action, snapshot, rfl, by rw [hnext]; rfl, hdelivered, hstate⟩
        · exact ⟨fun _ => .inr ⟨hpanics.ready, .inr ⟨hpanics.late, hpanicked⟩⟩,
            fun _ => .inl hpanics.ready⟩

/-- A panic is for good: the supervisor does not move, and nobody else publishes. -/
theorem panicked_step (event : SupervisorEvent) (h : s.phase = .panicked) :
    (s.step selector maxStaleness lastInstant event).phase = .panicked ∧
      (s.step selector maxStaleness lastInstant event).forwarder.publisher =
        s.forwarder.publisher := by
  cases event with
  | tick | shutdown | provide | endProvider => exact ⟨h, rfl⟩
  | breakers event =>
    simp only [step]
    split <;> exact ⟨h, rfl⟩
  | act action =>
    simp only [step]
    cases hnext : s.next selector maxStaleness lastInstant action with
    | none => exact ⟨h, rfl⟩
    | some s' =>
      have hrunning := running_of_next hnext
      rw [h] at hrunning
      cases hrunning

end Supervisor

/-! ## Runs -/

section Runs

variable (c : Subscription) (es : List SupervisorEvent)

/-- While the directory stays stale, the deadline stays where it is. -/
theorem deadline_kept (es later : List SupervisorEvent)
    (hrevision : (c.run (es ++ later)).revision + 1 < Usize.size)
    (hstale : ∀ earlier rest, later = earlier ++ rest → c.directory (es ++ earlier) = .stale) :
    (c.run (es ++ later)).forwarder.staleDeadline = (c.run es).forwarder.staleDeadline := by
  induction later using List.reverseRecOn with
  | nil => rw [List.append_nil]
  | append_singleton later e ih =>
    rw [← List.append_assoc] at hrevision ⊢
    have hinv := Subscription.inv_before _ _ hrevision
    have hlater : c.directory (es ++ later) = .stale := hstale later [e] rfl
    have hlast : c.directory (es ++ later ++ [e]) = .stale := by
      rw [List.append_assoc]
      exact hstale (later ++ [e]) [] (List.append_nil _).symm
    unfold Subscription.directory at hlater hlast
    rw [Subscription.run_concat] at hrevision hlast ⊢
    have hbefore := Nat.lt_of_le_of_lt (Nat.succ_le_succ (Supervisor.revision_le_step _ e)) hrevision
    rcases (Supervisor.directory_step hinv e hrevision).1 hlast with ⟨-, hkept⟩ | ⟨hready, -⟩
    · rw [hkept]
      exact ih hbefore fun earlier rest hsplit =>
        hstale earlier (rest ++ [e]) (by rw [hsplit, List.append_assoc])
    · rw [hlater] at hready
      cases hready

/-- What is ready or stale and was neither before has had a ready snapshot in between. -/
theorem delivered_between (es later : List SupervisorEvent)
    (hrevision : (c.run (es ++ later)).revision + 1 < Usize.size)
    (hbefore : ¬ (c.run es).forwarder.Routable)
    (hafter : (c.run (es ++ later)).forwarder.Routable) :
    ∃ before event after, later = before ++ event :: after ∧
      Supervisor.Delivers c.selector c.maxStaleness c.lastInstant (c.run (es ++ before)) event := by
  induction later using List.reverseRecOn with
  | nil =>
    rw [List.append_nil] at hafter
    exact absurd hafter hbefore
  | append_singleton later e ih =>
    rw [← List.append_assoc] at hrevision hafter
    have hinv := Subscription.inv_before _ _ hrevision
    by_cases hlater : (c.run (es ++ later)).forwarder.Routable
    · rw [Subscription.run_concat] at hrevision
      have hprefix := Nat.lt_of_le_of_lt (Nat.succ_le_succ (Supervisor.revision_le_step _ e))
        hrevision
      obtain ⟨before, event, after, rfl, hdelivers⟩ := ih hprefix hlater
      exact ⟨before, event, after ++ [e], by simp, hdelivers⟩
    · rw [Subscription.run_concat] at hrevision hafter
      have hstep := Supervisor.directory_step hinv e hrevision
      refine ⟨later, e, [], rfl, ?_⟩
      rcases hafter with hready | hstale
      · exact (hstep.2 hready).resolve_left fun h => hlater (.inl h)
      · rcases hstep.1 hstale with ⟨h, -⟩ | ⟨h, -⟩
        · exact absurd (.inr h) hlater
        · exact absurd (.inl h) hlater

/-- **A panicked supervisor** stays so, and the directory keeps its state. -/
theorem panicked_run (es later : List SupervisorEvent) (h : (c.run es).phase = .panicked) :
    (c.run (es ++ later)).phase = .panicked ∧ c.directory (es ++ later) = c.directory es := by
  have hstays := c.machine.stable (J := fun _ => True)
    (I := fun s => s.phase = .panicked ∧ s.forwarder.publisher = (c.run es).forwarder.publisher)
    (fun _ => trivial)
    (fun _ e _ hs => (Supervisor.panicked_step e hs.1).imp id fun h => h.trans hs.2)
    ⟨h, rfl⟩ later
  exact ⟨hstays.1, congrArg (fun publisher => publisher.snapshot.state) hstays.2⟩

/-- **Staleness is bounded**: as long as the revision of the directory is not used up, a
stale directory of a running supervisor became stale when it last stopped being ready, and
the deadline is that moment and `maxStaleness`, or else the supervisor has panicked as this is
no instant; staying stale does not move it; and an unavailable directory is routed again behind
a ready snapshot of the provider only. -/
theorem stale_bounded (hrevision : (c.run es).revision + 1 < Usize.size) :
    ((c.run es).phase ≠ .ended → c.directory es = .stale →
      ∃ before event after, es = before ++ event :: after ∧ c.directory before = .ready ∧
        (∀ later rest, after = later ++ rest → c.directory (before ++ event :: later) = .stale) ∧
        ((c.run before).now + c.maxStaleness ≤ c.lastInstant →
          (c.run es).forwarder.staleDeadline = some ((c.run before).now + c.maxStaleness)) ∧
        (c.lastInstant < (c.run before).now + c.maxStaleness → (c.run es).phase = .panicked)) ∧
    (∀ before after, es = before ++ after →
      (∀ later rest, after = later ++ rest → c.directory (before ++ later) = .stale) →
      (c.run es).forwarder.staleDeadline = (c.run before).forwarder.staleDeadline) ∧
    ∀ before after, es = before ++ after → c.directory before = .unavailable →
      (c.directory es = .ready ∨ c.directory es = .stale) →
      ∃ earlier event later, after = earlier ++ event :: later ∧
        Supervisor.Delivers c.selector c.maxStaleness c.lastInstant (c.run (before ++ earlier))
          event := by
  refine ⟨fun _ hstale => ?_, ?_, ?_⟩
  · obtain ⟨before, event, after, rfl, hbefore, hsince⟩ :=
      c.machine.exists_since (P := fun s => s.forwarder.directory = .stale) nofun hstale
    have hsplit : before ++ event :: after = before ++ [event] ++ after := by simp
    have hkept := deadline_kept c (before ++ [event]) after
      (by rwa [← hsplit]) fun earlier rest h => by
        rw [List.append_assoc]
        exact hsince earlier rest h
    have hinv : (c.run before).Inv c.selector c.maxStaleness c.lastInstant :=
      Subscription.inv_before _ _ hrevision
    have hprefix : (c.run (before ++ [event])).revision + 1 < Usize.size :=
      Nat.lt_of_le_of_lt (Nat.succ_le_succ (Subscription.revision_le_run _ after))
        (by rwa [← hsplit])
    have hstale' := hsince [] after rfl
    change (c.run (before ++ [event])).forwarder.directory = .stale at hstale'
    have hstep := Supervisor.directory_step hinv event
    rw [← Subscription.run_concat] at hstep
    rcases (hstep hprefix).1 hstale' with ⟨h, -⟩ | ⟨hready, harmed | hlate⟩
    · exact absurd h hbefore
    · refine ⟨before, event, after, rfl, hready, hsince, fun _ => ?_, fun hlate => ?_⟩
      · rw [hsplit, hkept, harmed.2]
      · exact absurd harmed.1 (Nat.not_le_of_lt hlate)
    · refine ⟨before, event, after, rfl, hready, hsince, fun hlast => ?_, fun _ => ?_⟩
      · exact absurd hlast (Nat.not_le_of_lt hlate.1)
      · rw [hsplit]
        exact (panicked_run c _ after hlate.2).1
  · rintro before after rfl hstale
    exact deadline_kept c _ _ hrevision hstale
  · rintro before after rfl hunavailable hroutable
    refine delivered_between c _ _ hrevision (fun h => ?_) hroutable
    unfold Subscription.directory at hunavailable
    rcases h with h | h <;>
    · rw [hunavailable] at h
      cases h

end Runs

/-! ### A run -/

/-- The provider publishes, and the supervisor forwards what it published. -/
def republish (state : DirectoryState) (instances : List ServiceInstance) : List SupervisorEvent :=
  [.provide 0 state (some instances), .act .changed, .act .read]

/-- A subscription of one service. -/
def orders : Subscription := ⟨⟨"orders".toList, none, none, []⟩, 30, 1000, 0, 2, 60⟩

def ordersNode : ServiceInstance := ⟨"a".toList, "http://a".toList⟩

/-- A ready provider without instances, whose first snapshot is forwarded twice: when it is
activated, and as a change. Then it publishes the same again, `n` times. -/
def busy : Nat → List SupervisorEvent
  | 0 =>
    [.act (.prepare (.handle 0)), .provide 0 .ready (some []), .act (.activated .ok),
      .act .changed, .act .read]
  | n + 1 => busy n ++ republish .ready []

/-- A stale snapshot and a later report of it: one deadline. -/
def staleTwice : List SupervisorEvent :=
  busy 0 ++ republish .stale [ordersNode] ++ [.tick 10] ++ republish .stale [ordersNode]

theorem stale_bounded_orders :
    ∃ before event after, staleTwice = before ++ event :: after ∧
      orders.directory before = .ready ∧
      (∀ later rest, after = later ++ rest → orders.directory (before ++ event :: later) = .stale) ∧
      ((orders.run before).now + 30 ≤ 1000 →
        (orders.run staleTwice).forwarder.staleDeadline = some ((orders.run before).now + 30)) ∧
      (1000 < (orders.run before).now + 30 → (orders.run staleTwice).phase = .panicked) :=
  (stale_bounded orders staleTwice (by decide +kernel)).1 (by decide +kernel) (by decide +kernel)

/-- A directory that gets stale behind the last instant: it stays so, without a deadline. -/
theorem unrepresentable_unarmed :
    (({ orders with lastInstant := 29 } : Subscription).run staleTwice).phase = .panicked ∧
      ({ orders with lastInstant := 29 } : Subscription).directory staleTwice = .stale ∧
      (({ orders with lastInstant := 29 } : Subscription).run
        staleTwice).forwarder.staleDeadline = none := by
  decide +kernel

/-! ## Generations -/

namespace Supervisor

variable {selector : ServiceSelector} {maxStaleness lastInstant : Nat} {s s' : Supervisor}

/-- Generations are only added, and what is forwarded belongs to the last one. -/
def Succeeds (s s' : Supervisor) : Prop :=
  s.generations.length ≤ s'.generations.length ∧
    ∃ new, s'.updates = new ++ s.updates ∧ ∀ i ∈ new, s.generations.length ≤ i + 1

theorem Succeeds.refl (s : Supervisor) : s.Succeeds s :=
  ⟨Nat.le_refl _, [], rfl, fun _ hi => absurd hi List.not_mem_nil⟩

theorem Succeeds.trans {s'' : Supervisor} (h : s.Succeeds s') (h' : s'.Succeeds s'') :
    s.Succeeds s'' := by
  obtain ⟨hlength, new, hnew, hlast⟩ := h
  obtain ⟨hlength', new', hnew', hlast'⟩ := h'
  refine ⟨hlength.trans hlength', new' ++ new, ?_, fun i hi => ?_⟩
  · rw [hnew', hnew, List.append_assoc]
  · rcases List.mem_append.mp hi with hi | hi
    · exact hlength.trans (hlast' i hi)
    · exact hlast i hi

theorem Proceeds.succeeds (h : Proceeds s s') : s.Succeeds s' := by
  cases h with
  | keep hg hphase hu =>
    exact ⟨by rw [hg], [], hu, fun i hi => absurd hi List.not_mem_nil⟩
  | prepare seen hphase hg hphase' hu =>
    refine ⟨?_, [], hu, fun i hi => absurd hi List.not_mem_nil⟩
    rw [hg, List.length_append]
    exact Nat.le_add_right _ _
  | update hg hphase hphase' hu =>
    refine ⟨by rw [hg], [s.generations.length - 1], hu, fun _ hi => ?_⟩
    rw [List.mem_singleton.mp hi]
    exact Nat.le_add_of_sub_le (Nat.le_refl _)
  | close hphase hg hphase' hu =>
    refine ⟨?_, [], hu, fun i hi => absurd hi List.not_mem_nil⟩
    rw [hg]
    exact (List.length_modify _ _ _).ge

theorem succeeds_step (s : Supervisor) (event : SupervisorEvent) :
    s.Succeeds (s.step selector maxStaleness lastInstant event) := by
  cases event with
  | tick | shutdown => exact Succeeds.refl s
  | provide | endProvider =>
    refine ⟨?_, [], rfl, fun i hi => absurd hi List.not_mem_nil⟩
    exact (List.length_modify _ _ _).ge
  | breakers event =>
    simp only [step]
    split <;> exact Succeeds.refl s
  | act action =>
    simp only [step]
    cases hnext : s.next selector maxStaleness lastInstant action with
    | none => exact Succeeds.refl s
    | some s' => exact (proceeds_of_next hnext).succeeds

/-- A generation is prepared while no handle is open. -/
theorem closed_of_prepared (event : SupervisorEvent)
    (hlonger : s.generations.length <
      (s.step selector maxStaleness lastInstant event).generations.length) :
    s.phase.hasOpen = false := by
  cases event with
  | tick | shutdown => exact absurd hlonger (Nat.lt_irrefl _)
  | provide | endProvider => exact absurd hlonger (List.length_modify _ _ _).not_gt
  | breakers event =>
    simp only [step] at hlonger
    split at hlonger <;> exact absurd hlonger (Nat.lt_irrefl _)
  | act action =>
    simp only [step] at hlonger
    cases hnext : s.next selector maxStaleness lastInstant action with
    | none =>
      rw [hnext] at hlonger
      exact absurd hlonger (Nat.lt_irrefl _)
    | some s' =>
      rw [hnext, Option.getD_some] at hlonger
      cases proceeds_of_next hnext with
      | prepare seen hphase => exact hphase
      | keep hg | update hg =>
        rw [hg] at hlonger
        exact absurd hlonger (Nat.lt_irrefl _)
      | close hphase hg =>
        rw [hg] at hlonger
        exact absurd hlonger (List.length_modify _ _ _).not_gt

/-- What the last step leaves, apart from a shutdown. -/
def Gone (selector : ServiceSelector) (s : Supervisor) : Prop :=
  s.phase = .ended ∧ Assoc.get s.forwarder.endpointBreakers.memberships.owners selector = none ∧
    s.forwarder.directory = .closed

theorem gone_step (h : s.Gone selector) (event : SupervisorEvent) :
    (s.step selector maxStaleness lastInstant event).Gone selector := by
  obtain ⟨hphase, hmembership, hdirectory⟩ := h
  cases event with
  | tick | shutdown | provide | endProvider => exact ⟨hphase, hmembership, hdirectory⟩
  | breakers event =>
    simp only [step]
    split
    · exact ⟨hphase, hmembership, hdirectory⟩
    · rename_i hother
      refine ⟨hphase, ?_, hdirectory⟩
      exact (EndpointBreakers.owner_step (by simpa using hother)).trans hmembership
  | act action =>
    simp only [step]
    cases hnext : s.next selector maxStaleness lastInstant action with
    | none => exact ⟨hphase, hmembership, hdirectory⟩
    | some s' =>
      have hrunning := running_of_next hnext
      rw [hphase] at hrunning
      cases hrunning

end Supervisor

section Runs

variable (c : Subscription) (es : List SupervisorEvent)

end Runs

/-- The provider ends, its handle is closed, and a second generation delivers. -/
def reconnected : List SupervisorEvent :=
  staleTwice ++
    [.endProvider 0, .act .changed, .act .read, .act .changed, .act (.closed .ok), .act .elapsed,
      .act (.prepare (.handle 0)), .provide 1 .ready (some [ordersNode]), .act (.activated .ok)]

/-- The supervisor waits at its first generation, whose provider has published `n` times. -/
structure Watching (n : Nat) (s : Supervisor) : Prop where
  shutdown : s.shutdown = false
  phase : ∃ seen, seen ≤ n ∧ s.phase = .watching seen
  generations : ∃ snapshot seen, s.generations = [⟨⟨n, ⟨snapshot, n⟩⟩, seen, false, false⟩]

theorem watching_republish {c : Subscription} {es : List SupervisorEvent} {n : Nat}
    (h : Watching n (c.run es)) (hn : n + 1 < Usize.size) (state : DirectoryState)
    (hstate : ¬ (state = .initializing ∨ state = .closed)) (instances : List ServiceInstance)
    {f : DirectoryForwarder}
    (hupdate : (c.run es).forwarder.updateSnapshot c.selector (c.run es).now c.maxStaleness
      c.lastInstant ⟨n + 1, state, instances⟩ = .ok f) :
    Watching (n + 1) (c.run (es ++ republish state instances)) ∧
      (c.run (es ++ republish state instances)).forwarder = f ∧
      (c.run (es ++ republish state instances)).now = (c.run es).now := by
  obtain ⟨hshutdown, ⟨seen, hseen, hphase⟩, snapshot, first, hgenerations⟩ := h
  have hne : seen ≠ n + 1 := by omega
  have hrun : c.run (es ++ republish state instances) =
      { c.run es with
        generations := [⟨⟨n + 1, ⟨⟨n + 1, state, instances⟩, n + 1⟩⟩, first, false, false⟩]
        phase := .watching (n + 1)
        forwarder := f
        updates := 0 :: (c.run es).updates } := by
    have hsplit : es ++ republish state instances =
        es ++ [.provide 0 state (some instances)] ++ [.act .changed] ++ [.act .read] := by
      simp [republish]
    rw [hsplit, Subscription.run_concat, Subscription.run_concat, Subscription.run_concat]
    simp [Supervisor.step, Supervisor.provider, Supervisor.next, hgenerations, hshutdown, hphase,
      DirectoryPublisher.publish_eq, DirectoryPublisher.send, hn, hstate, Supervisor.current,
      Runtime.Watch.changed, Runtime.Watch.sendReplace, hne, Supervisor.goto, Supervisor.update,
      Supervisor.attempt, DirectoryForwarder.left, Except.isOk, Except.toBool, hupdate,
      DirectoryPublisher.snapshot]
  rw [hrun]
  exact ⟨⟨hshutdown, ⟨n + 1, Nat.le_refl _, rfl⟩, _, _, rfl⟩, rfl, rfl⟩

/-- The directory is one publication ahead of its provider. -/
theorem busy_ahead {n : Nat} (hn : n + 2 < Usize.size) :
    Watching (n + 1) (orders.run (busy n)) ∧ orders.directory (busy n) = .ready ∧
      (orders.run (busy n)).revision = n + 2 ∧ (orders.run (busy n)).now = 0 := by
  induction n with
  | zero =>
    have hone : 0 + 1 < Usize.size := by omega
    have hsecond : 1 + 1 < Usize.size := by omega
    simp [busy, orders, Subscription.run, Subscription.directory, Subscription.machine, supervisor,
      Machine.run, Supervisor.step, Supervisor.next, Supervisor.new, Supervisor.provider,
      Supervisor.goto, Supervisor.current, Supervisor.update, Supervisor.attempt, hone,
      DirectoryForwarder.left, Except.isOk, Except.toBool,
      Generation.prepared, DirectoryPublisher.publish_eq, DirectoryPublisher.directory,
      DirectoryPublisher.send, Runtime.Watch.sendReplace, Runtime.Watch.channel,
      Runtime.Watch.changed, DirectoryForwarder.updateSnapshot, DirectoryForwarder.replace,
      DirectoryForwarder.publish, DirectoryForwarder.disarm, DirectoryForwarder.send,
      DirectoryPublisher.snapshot, Supervisor.revision, DirectoryForwarder.directory, hsecond]
    exact ⟨rfl, ⟨1, Nat.le_refl _, rfl⟩, _, _, rfl⟩
  | succ n ih =>
    obtain ⟨hwatching, hready, hrevision, hnow⟩ := ih (by omega)
    obtain ⟨hwatching', hforwarder, hnow'⟩ :=
      watching_republish hwatching (by omega) .ready (by decide) [] rfl
    refine ⟨hwatching', ?_⟩
    unfold Supervisor.revision at hrevision
    have hready' : (orders.run (busy (n + 1))).forwarder = _ := hforwarder
    unfold Subscription.directory Supervisor.revision
    rw [hready', DirectoryForwarder.replace_eq (by omega) (by decide)]
    refine ⟨rfl, ?_, hnow'.trans hnow⟩
    show _ + 1 = _
    omega

/-- The last of `n + 4` publications is refused. -/
def exhausting (n : Nat) : List SupervisorEvent :=
  busy n ++ republish .stale [] ++ republish .ready [ordersNode]

/-- A stale snapshot for a ready directory. -/
theorem updateSnapshot_stale {f : DirectoryForwarder} (hready : f.directory = .ready)
    (hrevision : f.publisher.revision + 1 < Usize.size) (selector : ServiceSelector)
    {now maxStaleness lastInstant : Nat} (hlast : now + maxStaleness ≤ lastInstant)
    (revision : Nat) (instances : List ServiceInstance) :
    f.updateSnapshot selector now maxStaleness lastInstant ⟨revision, .stale, instances⟩ =
      .ok { publisher := f.publisher.send .stale instances
            state := .stale
            endpointBreakers := f.endpointBreakers.replaceDiscovery selector instances
            staleDeadline := some (f.staleDeadline.getD (now + maxStaleness)) } := by
  unfold DirectoryForwarder.updateSnapshot
  dsimp only
  rw [if_pos (.inl hready), DirectoryForwarder.replace_eq hrevision (by decide),
    DirectoryForwarder.arm_eq, if_pos fun _ => hlast]
  rfl

/-- The refused publication of a ready snapshot changes the membership only. -/
theorem replace_exhausted {f : DirectoryForwarder} (h : f.publisher.revision + 1 = Usize.size)
    (selector : ServiceSelector) (instances : List ServiceInstance) :
    f.replace selector .ready instances =
      { f with endpointBreakers := f.endpointBreakers.replaceDiscovery selector instances } := by
  have hused : ¬ f.publisher.revision + 1 < Usize.size := by omega
  unfold DirectoryForwarder.replace DirectoryForwarder.publish DirectoryPublisher.publish
    Usize.checkedAdd
  rw [if_neg (by decide), if_neg hused]

/-- The provider is ready again with an instance, and the directory does not say so. -/
theorem run_exhausting {n : Nat} (hn : n + 4 = Usize.size) :
    (orders.run (exhausting n)).phase.running = true ∧
      (orders.run (exhausting n)).forwarder.directory = .stale ∧
      (orders.run (exhausting n)).forwarder.staleDeadline = none ∧
      (orders.run (exhausting n)).forwarder.publisher.snapshot.instances = [] ∧
      (orders.run (exhausting n)).forwarder.endpointBreakers.membership orders.selector =
        EndpointBreakers.endpointSet orders.selector [ordersNode] := by
  obtain ⟨hwatching, hready, hrevision, hnow⟩ := busy_ahead (n := n) (by omega)
  unfold Supervisor.revision at hrevision
  have hlast : (orders.run (busy n)).now + orders.maxStaleness ≤ orders.lastInstant := by
    rw [hnow]
    decide
  obtain ⟨hwatching, hstale, -⟩ := watching_republish hwatching (by omega) .stale (by decide) []
    (updateSnapshot_stale hready (by omega) orders.selector hlast (n + 1 + 1) [])
  obtain ⟨hwatching, hforwarder, -⟩ :=
    watching_republish hwatching (by omega) .ready (by decide) [ordersNode] rfl
  obtain ⟨seen, -, hphase⟩ := hwatching.phase
  have hused : (orders.run (busy n ++ republish .stale [])).forwarder.publisher.revision + 1 =
      Usize.size := by
    rw [hstale]
    show (orders.run (busy n)).forwarder.publisher.revision + 1 + 1 = _
    omega
  have hrefused : (orders.run (exhausting n)).forwarder =
      ({ (orders.run (busy n ++ republish .stale [])).forwarder with
        endpointBreakers := (orders.run (busy n ++ republish .stale [])).forwarder.endpointBreakers
          |>.replaceDiscovery orders.selector [ordersNode]
      } : DirectoryForwarder).disarm.send .ready :=
    hforwarder.trans (congrArg (fun f : DirectoryForwarder => f.disarm.send .ready)
      (replace_exhausted hused orders.selector [ordersNode]))
  refine ⟨?_, ?_⟩
  · rw [exhausting, hphase]
    rfl
  · rw [hrefused, hstale]
    exact ⟨rfl, rfl, rfl, EndpointBreakers.membership_replaceDiscovery _ _ _⟩

/-- Behind its last revision, the directory stays stale without a deadline. -/
theorem exhausted_unarmed :
    (orders.run (exhausting (Usize.size - 4))).phase.running = true ∧
      orders.directory (exhausting (Usize.size - 4)) = .stale ∧
      (orders.run (exhausting (Usize.size - 4))).forwarder.staleDeadline = none := by
  have hrun := run_exhausting (n := Usize.size - 4) (by unfold Usize.size; omega)
  exact ⟨hrun.1, hrun.2.1, hrun.2.2.1⟩

end Fusen.Client
