import Fusen.Lib.Assoc
import Mathlib.Tactic.Common

/-!
# The bounded store of endpoint breakers (`EndpointBreakerStore`)

A breaker is known by its number: two lookups share a breaker exactly when they
return the same number.  A lookup reads the clock before it takes the lock, so
the times of successive lookups need not grow; and where several entries are the
least recently used, the hash map decides which one goes, so the lookup is given
the choice.
-/

namespace Fusen.Resilience

open Lib

structure EndpointEntry where
  breaker : Nat
  lastUsed : Nat

/-- `created` counts the breakers made so far. -/
structure EndpointBreakerStore (κ : Type) where
  maxEntries : Nat
  idleEviction : Nat
  entries : List (κ × EndpointEntry)
  created : Nat

namespace EndpointBreakerStore

variable {κ : Type} [DecidableEq κ]

def new (maxEntries idleEviction : Nat) : EndpointBreakerStore κ :=
  ⟨maxEntries, idleEviction, [], 0⟩

def evictIdleLocked (entries : List (κ × EndpointEntry)) (now idleEviction : Nat) :
    List (κ × EndpointEntry) :=
  entries.filter fun e => now - e.2.lastUsed < idleEviction

/-- The least recently used entry, number `tie` of those there are. -/
def oldest (entries : List (κ × EndpointEntry)) (tie : Nat) : Option κ :=
  (entries.map fun e => e.2.lastUsed).min?.bind fun least =>
    let ties := entries.filter fun e => e.2.lastUsed = least
    (ties[tie % ties.length]?).map Prod.fst

/-- The entries a lookup of `key` keeps: those not idle and, if `key` is not among
them and the store is full, all but the least recently used. -/
def kept (s : EndpointBreakerStore κ) (key : κ) (now tie : Nat) : List (κ × EndpointEntry) :=
  let entries := evictIdleLocked s.entries now s.idleEviction
  match Assoc.get entries key with
  | some _ => entries
  | none =>
    if s.maxEntries ≤ entries.length then
      match oldest entries tie with
      | some key => Assoc.remove key entries
      | none => entries
    else entries

/-- `get_or_insert_observed`: the breaker and the store after the lookup. -/
def getOrInsert (s : EndpointBreakerStore κ) (key : κ) (now tie : Nat) :
    Nat × EndpointBreakerStore κ :=
  let entries := s.kept key now tie
  match Assoc.get entries key with
  | some entry =>
    (entry.breaker,
      { s with entries := Assoc.upsert key (fun _ => { entry with lastUsed := now }) entries })
  | none =>
    (s.created,
      { s with
        entries := Assoc.upsert key (fun _ => ⟨s.created, now⟩) entries
        created := s.created + 1 })

def untracked (s : EndpointBreakerStore κ) : Nat × EndpointBreakerStore κ :=
  (s.created, { s with created := s.created + 1 })

def retain (s : EndpointBreakerStore κ) (keep : κ → Bool) : EndpointBreakerStore κ :=
  { s with entries := s.entries.filter fun e => keep e.1 }

/-! ## The cached breaker of a key -/

def cached (s : EndpointBreakerStore κ) (key : κ) : Option Nat :=
  (Assoc.get s.entries key).map EndpointEntry.breaker

/-- The lookup of `key` evicts `key'`, idle or least recently used. -/
def Evicts (s : EndpointBreakerStore κ) (key : κ) (now tie : Nat) (key' : κ) : Prop :=
  Assoc.get (s.kept key now tie) key' = none

instance (s : EndpointBreakerStore κ) (key : κ) (now tie : Nat) (key' : κ) :
    Decidable (s.Evicts key now tie key') :=
  inferInstanceAs (Decidable (_ = none))

variable {s : EndpointBreakerStore κ} {key key' : κ} {now tie b : Nat}

theorem nodup_kept (hd : (s.entries.map Prod.fst).Nodup) :
    ((s.kept key now tie).map Prod.fst).Nodup := by
  have hidle : ((evictIdleLocked s.entries now s.idleEviction).map Prod.fst).Nodup :=
    Assoc.nodup_keys_filter hd
  unfold kept
  dsimp only
  split
  · exact hidle
  · split
    · split
      · exact Assoc.nodup_keys_filter hidle
      · exact hidle
    · exact hidle

theorem mem_of_mem_kept {e : κ × EndpointEntry} (h : e ∈ s.kept key now tie) : e ∈ s.entries := by
  unfold kept at h
  dsimp only at h
  split at h
  · exact List.mem_of_mem_filter h
  · split at h
    · split at h
      · exact List.mem_of_mem_filter (List.mem_of_mem_filter h)
      · exact List.mem_of_mem_filter h
    · exact List.mem_of_mem_filter h

/-- What a lookup keeps is what was cached. -/
theorem cached_of_kept (hd : (s.entries.map Prod.fst).Nodup) {entry : EndpointEntry}
    (h : Assoc.get (s.kept key now tie) key' = some entry) : s.cached key' = some entry.breaker := by
  have hmem := mem_of_mem_kept (Assoc.mem_of_get h)
  rw [cached, Assoc.get_of_mem hd hmem]
  rfl

theorem cached_getOrInsert (key' : κ) :
    (s.getOrInsert key now tie).2.cached key' =
      if key' = key then some (s.getOrInsert key now tie).1
      else (Assoc.get (s.kept key now tie) key').map EndpointEntry.breaker := by
  unfold getOrInsert cached
  dsimp only
  cases hget : Assoc.get (s.kept key now tie) key with
  | some entry =>
    simp only [Assoc.get_upsert]
    split <;> rfl
  | none =>
    simp only [Assoc.get_upsert]
    split <;> rfl

/-- A lookup that does not evict the entry it looks for returns its breaker. -/
theorem getOrInsert_of_cached (hd : (s.entries.map Prod.fst).Nodup)
    (hk : ¬ s.Evicts key now tie key) (hc : s.cached key = some b) :
    (s.getOrInsert key now tie).1 = b := by
  obtain ⟨entry, hentry⟩ := Option.ne_none_iff_exists'.mp hk
  have hb := cached_of_kept hd hentry
  rw [hc] at hb
  simp only [getOrInsert, hentry]
  exact (Option.some.inj hb).symm

/-- A lookup that does not evict `key'` leaves its breaker cached. -/
theorem cached_getOrInsert_of_kept (hd : (s.entries.map Prod.fst).Nodup)
    (hk : ¬ s.Evicts key now tie key') (hc : s.cached key' = some b) :
    (s.getOrInsert key now tie).2.cached key' = some b := by
  rw [cached_getOrInsert]
  split
  · rename_i heq
    subst heq
    rw [getOrInsert_of_cached hd hk hc]
  · obtain ⟨entry, hentry⟩ := Option.ne_none_iff_exists'.mp hk
    rw [hentry, Option.map_some, ← cached_of_kept hd hentry, hc]

theorem nodup_getOrInsert (hd : (s.entries.map Prod.fst).Nodup) :
    ((s.getOrInsert key now tie).2.entries.map Prod.fst).Nodup := by
  unfold getOrInsert
  dsimp only
  split <;> exact Assoc.nodup_keys_upsert (nodup_kept hd)

/-- A key that is cached after a lookup was so before, or it is the key of the lookup. -/
theorem cached_of_getOrInsert (hd : (s.entries.map Prod.fst).Nodup)
    (h : (s.getOrInsert key now tie).2.cached key' = some b) :
    key' = key ∨ s.cached key' = some b := by
  rw [cached_getOrInsert] at h
  split at h
  · rename_i heq
    exact .inl heq
  · obtain ⟨entry, hentry, rfl⟩ := Option.map_eq_some_iff.mp h
    exact .inr (cached_of_kept hd hentry)

theorem cached_retain (keep : κ → Bool) (key : κ) :
    (s.retain keep).cached key = if keep key then s.cached key else none := by
  unfold retain cached
  rw [Assoc.get_filter_key]
  split <;> rfl

end EndpointBreakerStore

end Fusen.Resilience
