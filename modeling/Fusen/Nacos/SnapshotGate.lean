import Fusen.Lib.Machine
import Fusen.Nacos.Isolation
import Fusen.Register.Directory

/-!
# The snapshot gate of a Nacos subscription (`fusen-nacos/register.rs`)

A subscription listens for changes before it fetches the first instances, and its gate
keeps the fetched instances from overwriting a change that was faster.  The gate's mutex
is held for the whole of an operation, so the operations happen one after the other; the
activation of the subscription and the listener run in two tasks and in any order.
`gate_latest` says what the directory shows after every run.
-/

namespace Fusen.Nacos

open Lib Contract Register

/-! ## The gate -/

structure SnapshotGateState (ι : Type) where
  initialized : Bool
  pending : Option (List ι)

structure SnapshotGate (ι : Type) where
  publisher : DirectoryPublisher ι
  state : SnapshotGateState ι

namespace SnapshotGate

variable {ι : Type}

def new (publisher : DirectoryPublisher ι) : SnapshotGate ι := ⟨publisher, ⟨false, none⟩⟩

/-- `initialize`: the pending update is taken, also if the publication fails. -/
def initializeWith (g : SnapshotGate ι) (initial : List ι) :
    SnapshotGate ι × Except RegistryError Unit :=
  let snapshot := g.state.pending.getD initial
  let state := { g.state with pending := none }
  match g.publisher.publishReady snapshot with
  | .error e => ({ g with state }, .error e)
  | .ok publisher => (⟨publisher, { state with initialized := true }⟩, .ok ())

def update (g : SnapshotGate ι) (instances : List ι) : SnapshotGate ι × Except RegistryError Unit :=
  if g.state.initialized then
    match g.publisher.publishReady instances with
    | .error e => (g, .error e)
    | .ok publisher => ({ g with publisher }, .ok ())
  else ({ g with state := { g.state with pending := some instances } }, .ok ())

end SnapshotGate

/-! ## The subscription -/

structure NamingChangeEvent where
  instances : Option (List NacosServiceInstance)

structure ServiceChangeListener where
  crate : UrlCrate
  selector : ServiceSelector
  convention : NacosConvention

namespace ServiceChangeListener

def read (l : ServiceChangeListener) (instances : List NacosServiceInstance) :
    List ServiceInstance :=
  toServiceInstances l.crate instances l.selector l.convention

/-- The update that an event hands to the gate. -/
def updateOf (l : ServiceChangeListener) (event : NamingChangeEvent) : List ServiceInstance :=
  (event.instances.map l.read).getD []

/-- A refused update is only logged. -/
def event (l : ServiceChangeListener) (gate : SnapshotGate ServiceInstance)
    (event : NamingChangeEvent) : SnapshotGate ServiceInstance :=
  (gate.update (l.updateOf event)).1

end ServiceChangeListener

/-- Where the future that activates the subscription is. -/
inductive Activation where
  | subscribing
  | selecting
  | fetched (initial : List ServiceInstance)
  | ended (result : Except RegistryError Unit)
  | dropped

structure NacosSubscription where
  gate : SnapshotGate ServiceInstance
  activation : Activation

/-- What happens to a subscription: Nacos answers its two requests, the gate is
initialised, the future is dropped, or the listener is called. -/
inductive NacosEvent where
  | subscribed (answer : Except RegistryError Unit)
  | selected (answer : Except RegistryError (List NacosServiceInstance))
  | initialized
  | dropped
  | change (event : NamingChangeEvent)

namespace NacosSubscription

/-- `prepare_subscription` -/
def prepared : NacosSubscription := ⟨.new .directory, .subscribing⟩

/-- An event that the activation does not wait for changes nothing. -/
def step (l : ServiceChangeListener) (s : NacosSubscription) : NacosEvent → NacosSubscription
  | .subscribed answer =>
    match s.activation, answer with
    | .subscribing, .ok () => { s with activation := .selecting }
    | .subscribing, .error e => { s with activation := .ended (.error e) }
    | _, _ => s
  | .selected answer =>
    match s.activation, answer with
    | .selecting, .ok instances => { s with activation := .fetched (l.read instances) }
    | .selecting, .error e => { s with activation := .ended (.error e) }
    | _, _ => s
  | .initialized =>
    match s.activation with
    | .fetched initial =>
      let (gate, result) := s.gate.initializeWith initial
      ⟨gate, .ended result⟩
    | _ => s
  | .dropped =>
    match s.activation with
    | .ended _ => s
    | _ => { s with activation := .dropped }
  | .change event => { s with gate := l.event s.gate event }

end NacosSubscription

/-- A subscription over all orders of its events. -/
def nacosSubscription (l : ServiceChangeListener) : Machine NacosSubscription NacosEvent where
  init := .prepared
  step := NacosSubscription.step l

namespace NacosSubscription

variable {l : ServiceChangeListener} {s : NacosSubscription}
  {us before after : List (List ServiceInstance)} {initial : List ServiceInstance}

/-! ## One step -/

/-- The update that the listener receives with an event. -/
def received (l : ServiceChangeListener) : NacosEvent → Option (List ServiceInstance)
  | .change event => some (l.updateOf event)
  | .subscribed _ | .selected _ | .initialized | .dropped => none

/-- Nothing is published, and the gate keeps the last update. -/
structure Waiting (s : NacosSubscription) (us : List (List ServiceInstance)) : Prop where
  initialized : s.gate.state.initialized = false
  pending : s.gate.state.pending = us.getLast?
  publisher : s.gate.publisher = .directory

/-- The last of the updates, or else what was fetched. -/
def latest (initial : List ServiceInstance) (us : List (List ServiceInstance)) :
    List ServiceInstance :=
  us.getLast?.getD initial

/-- The updates that are published: those that come when the revision is used up are not. -/
def accepted (after : List (List ServiceInstance)) : List (List ServiceInstance) :=
  after.take (Usize.size - 2)

/-- The directory shows the latest instances. -/
structure Showing (s : NacosSubscription) (initial : List ServiceInstance)
    (before after : List (List ServiceInstance)) : Prop where
  initialized : s.gate.state.initialized = true
  ended : ∃ result, s.activation = .ended result
  revision : s.gate.publisher.revision = (accepted after).length + 1
  snapshot : s.gate.publisher.snapshot =
    ⟨s.gate.publisher.revision, .ready, latest initial (before ++ accepted after)⟩

theorem two_lt_size : 2 < Usize.size := by
  unfold Usize.size
  decide

theorem Waiting.step (h : Waiting s us) {e : NacosEvent}
    (hnot : e = .initialized → ∀ initial, s.activation ≠ .fetched initial) :
    Waiting (s.step l e) (us ++ (received l e).toList) := by
  obtain ⟨hinit, hpending, hpublisher⟩ := h
  cases e with
  | subscribed answer =>
    rw [received, Option.toList_none, List.append_nil]
    simp only [NacosSubscription.step]
    split <;> exact ⟨hinit, hpending, hpublisher⟩
  | selected answer =>
    rw [received, Option.toList_none, List.append_nil]
    simp only [NacosSubscription.step]
    split <;> exact ⟨hinit, hpending, hpublisher⟩
  | initialized =>
    rw [received, Option.toList_none, List.append_nil]
    simp only [NacosSubscription.step]
    split
    · rename_i initial hfetched
      exact absurd hfetched (hnot rfl initial)
    · exact ⟨hinit, hpending, hpublisher⟩
  | dropped =>
    rw [received, Option.toList_none, List.append_nil]
    simp only [NacosSubscription.step]
    split <;> exact ⟨hinit, hpending, hpublisher⟩
  | change event =>
    have hupdate : s.step l (.change event) =
        { s with gate := { s.gate with
            state := { s.gate.state with pending := some (l.updateOf event) } } } := by
      show ({ s with gate := (s.gate.update (l.updateOf event)).1 } : NacosSubscription) = _
      rw [SnapshotGate.update, hinit, if_neg Bool.false_ne_true]
    rw [hupdate]
    exact ⟨hinit, List.getLast?_concat.symm, hpublisher⟩

variable (l) in
/-- The first publication: the newest update in place of what was fetched. -/
theorem Waiting.showing (h : Waiting s us) (hfetched : s.activation = .fetched initial) :
    Showing (s.step l .initialized) initial us [] := by
  obtain ⟨hinit, hpending, hpublisher⟩ := h
  have hpublish : s.gate.publisher.publishReady (latest initial us) =
      .ok (DirectoryPublisher.directory.send .ready (latest initial us)) := by
    rw [hpublisher, DirectoryPublisher.publishReady_eq]
    exact if_pos (Nat.lt_of_le_of_lt (Nat.le_succ 1) two_lt_size)
  have hstep : s.step l .initialized =
      ⟨⟨DirectoryPublisher.directory.send .ready (latest initial us), ⟨true, none⟩⟩,
        .ended (.ok ())⟩ := by
    unfold NacosSubscription.step SnapshotGate.initializeWith
    simp only [hfetched, hpending]
    rw [← latest, hpublish]
  have hnone : accepted [] = [] := List.take_nil
  rw [hstep]
  refine ⟨rfl, ⟨_, rfl⟩, ?_, ?_⟩
  · rw [hnone]
    rfl
  · rw [hnone, List.append_nil]
    rfl

theorem Showing.update (h : Showing s initial before after) (u : List ServiceInstance) :
    Showing { s with gate := (s.gate.update u).1 } initial before (after ++ [u]) := by
  have hsize := two_lt_size
  unfold SnapshotGate.update
  rw [if_pos h.initialized, DirectoryPublisher.publishReady_eq]
  have haccepted : (accepted after).length = min (Usize.size - 2) after.length := List.length_take
  by_cases hroom : after.length < Usize.size - 2
  · have hall : accepted after = after := List.take_of_length_le hroom.le
    have hall' : accepted (after ++ [u]) = after ++ [u] := by
      refine List.take_of_length_le ?_
      rw [List.length_append, List.length_singleton]
      omega
    have hrevision : s.gate.publisher.revision + 1 < Usize.size := by
      rw [h.revision, hall]
      omega
    rw [if_pos hrevision]
    refine ⟨h.initialized, h.ended, ?_, ?_⟩
    · show s.gate.publisher.revision + 1 = _
      rw [h.revision, hall, hall', List.length_append, List.length_singleton]
    · rw [hall', ← List.append_assoc, latest, List.getLast?_concat]
      rfl
  · have hkept : accepted (after ++ [u]) = accepted after :=
      List.take_append_of_le_length (Nat.le_of_not_lt hroom)
    have hrevision : ¬ s.gate.publisher.revision + 1 < Usize.size := by
      rw [h.revision, haccepted]
      omega
    rw [if_neg hrevision]
    exact ⟨h.initialized, h.ended, by rw [hkept]; exact h.revision, by rw [hkept]; exact h.snapshot⟩

variable (l) in
theorem Showing.step (h : Showing s initial before after) (e : NacosEvent) :
    Showing (s.step l e) initial before (after ++ (received l e).toList) := by
  obtain ⟨result, hended⟩ := h.ended
  cases e with
  | change event => exact h.update (l.updateOf event)
  | subscribed answer | selected answer | initialized | dropped =>
    rw [received, Option.toList_none, List.append_nil]
    simpa only [NacosSubscription.step, hended] using h

/-! ## A run -/

/-- The updates of a run, oldest first. -/
def updates (l : ServiceChangeListener) (es : List NacosEvent) : List (List ServiceInstance) :=
  es.filterMap (received l)

/-- The event initialises the gate with what was fetched. -/
def Initializes (l : ServiceChangeListener) (before : List NacosEvent)
    (initial : List ServiceInstance) : Prop :=
  ((nacosSubscription l).run before).activation = .fetched initial

theorem updates_concat (l : ServiceChangeListener) (es : List NacosEvent) (e : NacosEvent) :
    updates l (es ++ [e]) = updates l es ++ (received l e).toList := by
  rw [updates, List.filterMap_append, List.filterMap_cons, List.filterMap_nil]
  cases received l e <;> rfl

theorem waiting_run {es : List NacosEvent} (h : ∀ before after initial,
    es = before ++ .initialized :: after → ¬ Initializes l before initial) :
    Waiting ((nacosSubscription l).run es) (updates l es) := by
  induction es using List.reverseRecOn with
  | nil => exact ⟨rfl, rfl, rfl⟩
  | append_singleton es e ih =>
    have hwaiting := ih fun before after initial heq =>
      h before (after ++ [e]) initial (by rw [heq, List.append_assoc, List.cons_append])
    rw [Machine.run_concat, updates_concat]
    refine hwaiting.step fun he initial => ?_
    subst he
    exact h es [] initial rfl

/-- What the activation has fetched is not yet at the gate. -/
theorem waiting_of_fetched {es : List NacosEvent} (h : Initializes l es initial) :
    Waiting ((nacosSubscription l).run es) (updates l es) := by
  have hrun : Waiting ((nacosSubscription l).run es) (updates l es) ∨
      ∃ result, ((nacosSubscription l).run es).activation = .ended result ∧
        ∃ initial before after, Showing ((nacosSubscription l).run es) initial before after := by
    clear h
    induction es using List.reverseRecOn with
    | nil => exact .inl ⟨rfl, rfl, rfl⟩
    | append_singleton es e ih =>
      rw [Machine.run_concat, updates_concat]
      rcases ih with hwaiting | ⟨_, -, initial, before, after, hshowing⟩
      · by_cases hinit : e = .initialized ∧
            ∃ initial, ((nacosSubscription l).run es).activation = .fetched initial
        · obtain ⟨rfl, initial, hfetched⟩ := hinit
          have hshowing := hwaiting.showing l hfetched
          obtain ⟨result, hended⟩ := hshowing.ended
          exact .inr ⟨result, hended, _, _, _, hshowing⟩
        · exact .inl (hwaiting.step fun he initial hfetched => hinit ⟨he, initial, hfetched⟩)
      · have hshowing' := hshowing.step l e
        obtain ⟨result, hended⟩ := hshowing'.ended
        exact .inr ⟨result, hended, _, _, _, hshowing'⟩
  rcases hrun with hwaiting | ⟨result, hended, -⟩
  · exact hwaiting
  · rw [Initializes, hended] at h
    cases h

theorem showing_run {before : List NacosEvent} (h : Initializes l before initial)
    (after : List NacosEvent) :
    Showing ((nacosSubscription l).run (before ++ .initialized :: after)) initial
      (updates l before) (updates l after) := by
  induction after using List.reverseRecOn with
  | nil =>
    rw [Machine.run_concat]
    exact (waiting_of_fetched h).showing l h
  | append_singleton after e ih =>
    rw [← List.cons_append, ← List.append_assoc, Machine.run_concat, updates_concat]
    exact ih.step l e

/-- **What the directory shows after every run**: nothing before the gate is initialised;
then the last update of the run that was not refused, before or after, and what was fetched
if there was none. -/
theorem gate_latest (l : ServiceChangeListener) (es : List NacosEvent) :
    ((∀ before after initial, es = before ++ .initialized :: after →
        ¬ Initializes l before initial) →
      ((nacosSubscription l).run es).gate.publisher = .directory) ∧
    ∀ before after initial, es = before ++ .initialized :: after → Initializes l before initial →
      ((nacosSubscription l).run es).gate.publisher.snapshot =
        ⟨(accepted (updates l after)).length + 1, .ready,
          latest initial (updates l before ++ accepted (updates l after))⟩ := by
  refine ⟨fun h => (waiting_run h).publisher, ?_⟩
  rintro before after initial rfl h
  have hshowing := showing_run h after
  rw [hshowing.snapshot, hshowing.revision]

def usersListener : ServiceChangeListener :=
  ⟨usersCrate "/rpc".toList, usersSelector none isIdentityComponent_of_mem_none, .canonical⟩

/-- An instance that the listener reads. -/
def usersInstance : NacosServiceInstance :=
  instanceAt (usersRegistration none isIdentityComponent_of_mem_none "/rpc".toList)
    "127.0.0.1".toList 8080

/-- A change between the two requests. -/
def overtaken : List NacosEvent :=
  [.subscribed (.ok ()), .change ⟨some [usersInstance]⟩, .selected (.ok [])]

theorem gate_latest_overtaken :
    ((nacosSubscription usersListener).run (overtaken ++ [.initialized])).gate.publisher.snapshot =
      ⟨1, .ready, usersListener.read [usersInstance]⟩ := by
  have hnone : accepted (updates usersListener []) = [] := List.take_nil
  have h := (gate_latest usersListener (overtaken ++ [.initialized])).2 overtaken [] [] rfl rfl
  rw [hnone, List.append_nil] at h
  exact h

/-! ## A revision that is used up -/

/-- The events up to the answer with no instances. -/
def fetching : List NacosEvent := [.subscribed (.ok ()), .selected (.ok [])]

/-- So many changes to no instances, and a last one to an instance. -/
def exhausting (n : Nat) : List NacosEvent :=
  List.replicate n (.change ⟨none⟩) ++ [.change ⟨some [usersInstance]⟩]

theorem updates_exhausting (n : Nat) : updates usersListener (exhausting n) =
    List.replicate n [] ++ [usersListener.read [usersInstance]] := by
  rw [exhausting, updates_concat]
  congr 1
  induction n with
  | zero => rfl
  | succ n ih => rw [List.replicate_succ', updates_concat, ih, List.replicate_succ']; rfl

/-- The last update comes when the revision is used up: the directory still shows the one
before. -/
theorem gate_exhausted :
    let es := fetching ++ .initialized :: exhausting (Usize.size - 2)
    Initializes usersListener fetching [] ∧
      (updates usersListener es).getLast? = some (usersListener.read [usersInstance]) ∧
      ((nacosSubscription usersListener).run es).gate.publisher.snapshot.instances ≠
        usersListener.read [usersInstance] := by
  have hfetched : Initializes usersListener fetching [] := rfl
  refine ⟨hfetched, ?_, ?_⟩
  · rw [exhausting, ← List.cons_append, ← List.append_assoc, updates_concat]
    exact List.getLast?_concat
  · have hread : usersListener.read [usersInstance] ≠ [] := by
      rw [← List.isEmpty_eq_false_iff]
      decide +kernel
    have haccepted : accepted (updates usersListener (exhausting (Usize.size - 2))) =
        List.replicate (Usize.size - 2) [] := by
      rw [updates_exhausting]
      exact List.take_left' List.length_replicate
    have hsize : Usize.size - 2 ≠ 0 := by
      have := two_lt_size
      omega
    rw [(showing_run hfetched _).snapshot, haccepted]
    show latest [] (List.replicate (Usize.size - 2) []) ≠ _
    rw [latest, List.getLast?_replicate, if_neg hsize]
    exact hread.symm

end NacosSubscription

end Fusen.Nacos
