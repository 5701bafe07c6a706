import Fusen.Lib.Word
import Fusen.Register.Lifecycle

/-!
# Directories of service instances (`fusen-register/src/directory.rs`)

A publisher keeps the latest snapshot of a directory in a `watch` channel, with
a revision that every publication increases.  The moment a snapshot was observed
is left out: nothing that is modelled reads it.
-/

namespace Fusen.Register

open Lib Fusen.Runtime

inductive DirectoryState where
  | initializing
  | ready
  | stale
  | unavailable
  | closed
  deriving DecidableEq, Repr

structure DirectorySnapshot (ι : Type) where
  revision : Nat
  state : DirectoryState
  instances : List ι
  deriving DecidableEq

/-- A publisher and the channel of its directory. -/
structure DirectoryPublisher (ι : Type) where
  revision : Nat
  sender : Watch (DirectorySnapshot ι)

def managedDirectoryState : RegistryError :=
  ⟨.directory, .invalidResource,
    "Initializing and Closed are lifecycle-managed directory states".toList⟩

def directoryRevisionOverflowed : RegistryError :=
  ⟨.directory, .internal, "directory revision overflowed".toList⟩

namespace DirectoryPublisher

variable {ι : Type}

/-- The publisher of a new directory. -/
def directory : DirectoryPublisher ι := ⟨0, .channel ⟨0, .initializing, []⟩⟩

def snapshot (p : DirectoryPublisher ι) : DirectorySnapshot ι := p.sender.value

/-- `none` retains the instances. -/
def publish (p : DirectoryPublisher ι) (state : DirectoryState) (instances : Option (List ι)) :
    Except RegistryError (DirectoryPublisher ι) :=
  if state = .initializing ∨ state = .closed then .error managedDirectoryState
  else
    match Usize.checkedAdd p.revision 1 with
    | none => .error directoryRevisionOverflowed
    | some revision =>
      let instances := instances.getD p.snapshot.instances
      .ok ⟨revision, p.sender.sendReplace ⟨revision, state, instances⟩⟩

def publishReady (p : DirectoryPublisher ι) (instances : List ι) :
    Except RegistryError (DirectoryPublisher ι) :=
  p.publish .ready (some instances)

/-- The drop of the last clone of the publisher. -/
def dropped (p : DirectoryPublisher ι) : DirectoryPublisher ι :=
  match Usize.checkedAdd p.revision 1 with
  | none => p
  | some revision => ⟨revision, p.sender.sendReplace ⟨revision, .closed, p.snapshot.instances⟩⟩

/-! ## What a publication does -/

/-- The publisher after a snapshot was sent with the next revision. -/
def send (p : DirectoryPublisher ι) (state : DirectoryState) (instances : List ι) :
    DirectoryPublisher ι :=
  ⟨p.revision + 1, p.sender.sendReplace ⟨p.revision + 1, state, instances⟩⟩

@[simp] theorem snapshot_send (p : DirectoryPublisher ι) (state : DirectoryState)
    (instances : List ι) : (p.send state instances).snapshot = ⟨p.revision + 1, state, instances⟩ :=
  rfl

theorem publish_eq {p : DirectoryPublisher ι} {state : DirectoryState}
    (hrevision : p.revision + 1 < Usize.size) (hstate : ¬ (state = .initializing ∨ state = .closed))
    (instances : Option (List ι)) :
    p.publish state instances = .ok (p.send state (instances.getD p.snapshot.instances)) := by
  unfold publish
  rw [if_neg hstate, Usize.checkedAdd_eq_some_iff.mpr ⟨hrevision, rfl⟩]
  rfl

theorem publishReady_eq (p : DirectoryPublisher ι) (instances : List ι) :
    p.publishReady instances =
      if p.revision + 1 < Usize.size then .ok (p.send .ready instances)
      else .error directoryRevisionOverflowed := by
  have hstate : ¬ (DirectoryState.ready = .initializing ∨ DirectoryState.ready = .closed) := by decide
  by_cases hrevision : p.revision + 1 < Usize.size
  · rw [if_pos hrevision]
    exact publish_eq hrevision hstate (some instances)
  · have hadd : Usize.checkedAdd p.revision 1 = none := if_neg hrevision
    unfold publishReady publish
    rw [if_neg hstate, hadd, if_neg hrevision]

theorem dropped_eq {p : DirectoryPublisher ι} (hrevision : p.revision + 1 < Usize.size) :
    p.dropped = p.send .closed p.snapshot.instances := by
  unfold dropped
  rw [Usize.checkedAdd_eq_some_iff.mpr ⟨hrevision, rfl⟩]
  rfl

theorem revision_of_publish {p p' : DirectoryPublisher ι} {state : DirectoryState}
    {instances : Option (List ι)} (h : p.publish state instances = .ok p') :
    p'.revision = p.revision + 1 := by
  unfold publish at h
  split at h
  · cases h
  · split at h
    · cases h
    · rename_i hadd
      cases h
      exact (Usize.checkedAdd_eq_some_iff.mp hadd).2

theorem revision_le_dropped (p : DirectoryPublisher ι) : p.revision ≤ p.dropped.revision := by
  unfold dropped
  split
  · exact Nat.le_refl _
  · rename_i hadd
    rw [(Usize.checkedAdd_eq_some_iff.mp hadd).2]
    exact Nat.le_succ _

end DirectoryPublisher

end Fusen.Register
