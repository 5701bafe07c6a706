import Fusen.Resilience.EndpointStore

/-!
# Runs of the endpoint breaker store

`Served` says what one lookup does to the entries that are not idle: it finds its entry,
or inserts one, in the place of a least recently used one when the store is full.
`Kept` is the invariant of a run, which ties the stored instants to when each breaker was
returned last, and `bounded_lookups` the behaviour of every lookup of a run.
-/

namespace Fusen.Resilience

open Lib

structure Lookup (κ : Type) where
  key : κ
  now : Nat
  tie : Nat

namespace EndpointBreakerStore

variable {κ : Type} [DecidableEq κ]

/-- The store after some lookups, the newest first, and which breaker was returned when. -/
def after (maxEntries idleEviction : Nat) :
    List (Lookup κ) → EndpointBreakerStore κ × List (Nat × Nat)
  | [] => (new maxEntries idleEviction, [])
  | l :: earlier =>
    let s := (after maxEntries idleEviction earlier).1
    let r := s.getOrInsert l.key l.now l.tie
    (r.2, (l.now, r.1) :: (after maxEntries idleEviction earlier).2)

/-- When a breaker was returned last. -/
def lastUse (uses : List (Nat × Nat)) (breaker : Nat) : Option Nat :=
  (uses.find? fun u => u.2 = breaker).map Prod.fst

/-- The entries that are not idle. -/
def live (s : EndpointBreakerStore κ) (now : Nat) : List (κ × EndpointEntry) :=
  evictIdleLocked s.entries now s.idleEviction

/-! ## One lookup -/

variable {s : EndpointBreakerStore κ} {key : κ} {now tie : Nat}

omit [DecidableEq κ] in
theorem mem_live {e : κ × EndpointEntry} :
    e ∈ s.live now ↔ e ∈ s.entries ∧ now - e.2.lastUsed < s.idleEviction := by
  unfold live evictIdleLocked
  rw [List.mem_filter, decide_eq_true_eq]

omit [DecidableEq κ] in
/-- The least recently used entry of some. -/
theorem oldest_eq {entries : List (κ × EndpointEntry)} (h : entries ≠ []) (tie : Nat) :
    ∃ victim ∈ entries, oldest entries tie = some victim.1 ∧
      ∀ e ∈ entries, victim.2.lastUsed ≤ e.2.lastUsed := by
  have hsome : (entries.map fun e => e.2.lastUsed).min? ≠ none :=
    fun hnone => h (List.map_eq_nil_iff.mp (List.min?_eq_none_iff.mp hnone))
  obtain ⟨least, hleast⟩ := Option.ne_none_iff_exists'.mp hsome
  obtain ⟨hmem, hle⟩ := List.min?_eq_some_iff.mp hleast
  obtain ⟨e, he, heq⟩ := List.mem_map.mp hmem
  have hties : e ∈ entries.filter fun e => e.2.lastUsed = least :=
    List.mem_filter.mpr ⟨he, decide_eq_true heq⟩
  have hlt := Nat.mod_lt tie (List.length_pos_of_mem hties)
  unfold oldest
  rw [hleast, Option.bind_some]
  dsimp only
  rw [List.getElem?_eq_getElem hlt, Option.map_some]
  obtain ⟨hvictim, hoff⟩ := List.mem_filter.mp (List.getElem_mem hlt)
  refine ⟨_, hvictim, rfl, fun e' he' => ?_⟩
  rw [of_decide_eq_true hoff]
  exact hle _ (List.mem_map_of_mem he')

/-- What a lookup returns and leaves. -/
inductive Served (s : EndpointBreakerStore κ) (key : κ) (now : Nat) :
    Nat × EndpointBreakerStore κ → Prop
  | hit {e : EndpointEntry} (he : Assoc.get (s.live now) key = some e) :
    Served s key now (e.breaker,
      { s with entries := Assoc.upsert key (fun _ => { e with lastUsed := now }) (s.live now) })
  | insert (hnone : Assoc.get (s.live now) key = none) (hroom : (s.live now).length < s.maxEntries) :
    Served s key now (s.created,
      { s with
        entries := Assoc.upsert key (fun _ => ⟨s.created, now⟩) (s.live now)
        created := s.created + 1 })
  | evict (hnone : Assoc.get (s.live now) key = none) (hfull : s.maxEntries ≤ (s.live now).length)
    {victim : κ × EndpointEntry} (hvictim : victim ∈ s.live now)
    (holdest : ∀ e ∈ s.live now, victim.2.lastUsed ≤ e.2.lastUsed) :
    Served s key now (s.created,
      { s with
        entries := Assoc.upsert key (fun _ => ⟨s.created, now⟩)
          (Assoc.remove victim.1 (s.live now))
        created := s.created + 1 })

theorem served_getOrInsert (hmax : 0 < s.maxEntries) :
    Served s key now (s.getOrInsert key now tie) := by
  have hkept := kept.eq_1 s key now tie
  rw [← live] at hkept
  unfold getOrInsert
  dsimp only
  cases hget : Assoc.get (s.live now) key with
  | some e =>
    simp only [hget] at hkept
    rw [hkept]
    simp only [hget]
    exact .hit hget
  | none =>
    simp only [hget] at hkept
    by_cases hfull : s.maxEntries ≤ (s.live now).length
    · have hne : s.live now ≠ [] := List.ne_nil_of_length_pos (by omega)
      obtain ⟨victim, hvictim, heq, holdest⟩ := oldest_eq hne tie
      rw [if_pos hfull, heq] at hkept
      have hstill : Assoc.get (Assoc.remove victim.1 (s.live now)) key = none := by
        rw [Assoc.get_remove, hget, ite_self]
      rw [hkept]
      simp only [hstill]
      exact .evict hget hfull hvictim holdest
    · rw [if_neg hfull] at hkept
      rw [hkept]
      simp only [hget]
      exact .insert hget (Nat.lt_of_not_le hfull)

/-! ## What a run keeps -/

variable {maxEntries idleEviction : Nat} {uses : List (Nat × Nat)}
  {r : Nat × EndpointBreakerStore κ}

theorem lastUse_cons (u : Nat × Nat) (uses : List (Nat × Nat)) (breaker : Nat) :
    lastUse (u :: uses) breaker = if u.2 = breaker then some u.1 else lastUse uses breaker := by
  unfold lastUse
  rw [List.find?_cons]
  by_cases h : u.2 = breaker <;> simp [h]

theorem mem_of_lastUse {breaker t : Nat} (h : lastUse uses breaker = some t) :
    (t, breaker) ∈ uses := by
  obtain ⟨u, hu, rfl⟩ := Option.map_eq_some_iff.mp h
  have hfound := List.find?_some hu
  have hb : u.2 = breaker := of_decide_eq_true hfound
  rw [← hb]
  exact List.mem_of_find?_eq_some hu

/-- The stored instants are those of the last uses, and no breaker is stored twice. -/
structure Kept (maxEntries idleEviction : Nat) (s : EndpointBreakerStore κ)
    (uses : List (Nat × Nat)) : Prop where
  limit : s.maxEntries = maxEntries
  idle : s.idleEviction = idleEviction
  nodup : (s.entries.map Prod.fst).Nodup
  bounded : s.entries.length ≤ maxEntries
  used : ∀ e ∈ s.entries, lastUse uses e.2.breaker = some e.2.lastUsed
  apart : ∀ e ∈ s.entries, ∀ e' ∈ s.entries, e.2.breaker = e'.2.breaker → e = e'
  made : ∀ u ∈ uses, u.2 < s.created

omit [DecidableEq κ] in
theorem kept_new : Kept maxEntries idleEviction
    (new maxEntries idleEviction : EndpointBreakerStore κ) [] :=
  ⟨rfl, rfl, List.nodup_nil, Nat.zero_le _, nofun, nofun, nofun⟩

namespace Kept

variable (h : Kept maxEntries idleEviction s uses)

include h

omit [DecidableEq κ] in
theorem nodup_live : ((s.live now).map Prod.fst).Nodup := Assoc.nodup_keys_filter h.nodup

omit [DecidableEq κ] in
theorem length_live : (s.live now).length ≤ maxEntries :=
  Nat.le_trans (List.length_filter_le _ _) h.bounded

omit [DecidableEq κ] in
theorem breaker_lt {e : κ × EndpointEntry} (he : e ∈ s.entries) : e.2.breaker < s.created :=
  h.made _ (mem_of_lastUse (h.used e he))

/-- What is left is the entry of the lookup and live ones. -/
theorem mem_served (hr : Served s key now r) {e : κ × EndpointEntry} (he : e ∈ r.2.entries) :
    e = (key, ⟨r.1, now⟩) ∨ e.1 ≠ key ∧ e ∈ s.live now := by
  have hupsert {v : EndpointEntry} {l : List (κ × EndpointEntry)} (hd : (l.map Prod.fst).Nodup)
      (he : e ∈ Assoc.upsert key (fun _ => v) l) : e = (key, v) ∨ e.1 ≠ key ∧ e ∈ l := by
    have hget := Assoc.get_of_mem (Assoc.nodup_keys_upsert hd) he
    rw [Assoc.get_upsert] at hget
    split at hget
    · rename_i hkey
      exact .inl (Prod.ext hkey (Option.some.inj hget).symm)
    · rename_i hkey
      exact .inr ⟨hkey, Assoc.mem_of_get hget⟩
  cases hr with
  | hit _ => exact hupsert h.nodup_live he
  | insert _ _ => exact hupsert h.nodup_live he
  | evict _ _ _ _ =>
    refine (hupsert (Assoc.nodup_keys_filter h.nodup_live) he).imp_right fun hmem => ?_
    exact ⟨hmem.1, List.mem_of_mem_filter hmem.2⟩

/-- Another entry has another breaker. -/
theorem breaker_ne (hr : Served s key now r) {e : κ × EndpointEntry} (he : e ∈ s.entries)
    (hkey : e.1 ≠ key) : e.2.breaker ≠ r.1 := by
  cases hr with
  | hit hget =>
    intro heq
    have hmem := ((mem_live).mp (Assoc.mem_of_get hget)).1
    exact hkey (congrArg Prod.fst (h.apart e he _ hmem heq))
  | insert _ _ => exact Nat.ne_of_lt (h.breaker_lt he)
  | evict _ _ _ _ => exact Nat.ne_of_lt (h.breaker_lt he)

theorem length_served (hr : Served s key now r) : r.2.entries.length ≤ maxEntries := by
  have hlength : (s.live now).length ≤ maxEntries := h.length_live
  have hupsert (v : EndpointEntry) (l : List (κ × EndpointEntry)) :
      (Assoc.upsert key (fun _ => v) l).length =
        if key ∈ l.map Prod.fst then l.length else l.length + 1 := by
    rw [← List.length_map Prod.fst, Assoc.map_fst_upsert]
    split <;> simp
  cases hr with
  | hit hget =>
    have hmem := (Assoc.get_eq_none_iff (s.live now) key).not.mp (by rw [hget]; exact nofun)
    show (Assoc.upsert key _ (s.live now)).length ≤ maxEntries
    rw [hupsert, if_pos (not_not.mp hmem)]
    exact hlength
  | insert hnone hroom =>
    show (Assoc.upsert key _ (s.live now)).length ≤ maxEntries
    rw [hupsert, if_neg ((Assoc.get_eq_none_iff _ _).mp hnone), ← h.limit]
    exact hroom
  | @evict hnone hfull victim hvictim _ =>
    have hless : (Assoc.remove victim.1 (s.live now)).length < (s.live now).length :=
      List.length_filter_lt_length_iff_exists.mpr ⟨victim, hvictim, by simp⟩
    show (Assoc.upsert key _ (Assoc.remove victim.1 (s.live now))).length ≤ maxEntries
    rw [hupsert]
    split <;> omega

theorem served (hr : Served s key now r) :
    Kept maxEntries idleEviction r.2 ((now, r.1) :: uses) := by
  have hsame : r.2.maxEntries = s.maxEntries ∧ r.2.idleEviction = s.idleEviction := by
    cases hr <;> exact ⟨rfl, rfl⟩
  have hnodup : (r.2.entries.map Prod.fst).Nodup := by
    cases hr with
    | hit _ => exact Assoc.nodup_keys_upsert h.nodup_live
    | insert _ _ => exact Assoc.nodup_keys_upsert h.nodup_live
    | evict _ _ _ _ => exact Assoc.nodup_keys_upsert (Assoc.nodup_keys_filter h.nodup_live)
  have hcreated : r.1 < r.2.created ∧ s.created ≤ r.2.created := by
    cases hr with
    | hit hget => exact ⟨h.breaker_lt ((mem_live).mp (Assoc.mem_of_get hget)).1, Nat.le_refl _⟩
    | insert _ _ => exact ⟨Nat.lt_succ_self _, Nat.le_succ _⟩
    | evict _ _ _ _ => exact ⟨Nat.lt_succ_self _, Nat.le_succ _⟩
  refine ⟨hsame.1.trans h.limit, hsame.2.trans h.idle, hnodup, h.length_served hr,
    fun e he => ?_, fun e he e' he' heq => ?_, ?_⟩
  · rw [lastUse_cons]
    rcases h.mem_served hr he with rfl | ⟨hkey, hlive⟩
    · rw [if_pos rfl]
    · have hmem := ((mem_live).mp hlive).1
      rw [if_neg (h.breaker_ne hr hmem hkey).symm]
      exact h.used e hmem
  · rcases h.mem_served hr he with rfl | ⟨hkey, hlive⟩
    · rcases h.mem_served hr he' with rfl | ⟨hkey', hlive'⟩
      · rfl
      · exact absurd heq.symm (h.breaker_ne hr ((mem_live).mp hlive').1 hkey')
    · rcases h.mem_served hr he' with rfl | ⟨-, hlive'⟩
      · exact absurd heq (h.breaker_ne hr ((mem_live).mp hlive).1 hkey)
      · exact h.apart e ((mem_live).mp hlive).1 e' ((mem_live).mp hlive').1 heq
  · rintro u (_ | ⟨_, hu⟩)
    · exact hcreated.1
    · exact Nat.lt_of_lt_of_le (h.made u hu) hcreated.2

end Kept

theorem kept_after (hmax : 0 < maxEntries) (earlier : List (Lookup κ)) :
    Kept maxEntries idleEviction (after maxEntries idleEviction earlier).1
      (after maxEntries idleEviction earlier).2 := by
  induction earlier with
  | nil => exact kept_new
  | cons l earlier ih => exact ih.served (served_getOrInsert (by rwa [ih.limit]))

/-! ## Every lookup of a run -/

/-- Of the other keys all entries are left but the idle and the excepted ones. -/
def KeepsOthers (s : EndpointBreakerStore κ) (key : κ) (now : Nat)
    (r : Nat × EndpointBreakerStore κ) (except : κ → Prop) : Prop :=
  ∀ k e, k ≠ key → (Assoc.get r.2.entries k = some e ↔
    Assoc.get s.entries k = some e ∧ now - e.lastUsed < s.idleEviction ∧ ¬ except k)

/-- A lookup of a bounded store: `uses` says when each breaker was returned. -/
structure BoundedLookup (s : EndpointBreakerStore κ) (uses : List (Nat × Nat)) (key : κ)
    (now : Nat) (r : Nat × EndpointBreakerStore κ) : Prop where
  bounded : r.2.entries.length ≤ s.maxEntries
  used : ∀ k e, Assoc.get s.entries k = some e → lastUse uses e.breaker = some e.lastUsed
  recent : ∀ t, lastUse uses r.1 = some t → now - t < s.idleEviction
  newest : Assoc.get r.2.entries key = some ⟨r.1, now⟩ ∧ ∀ e ∈ r.2.entries, e.2.lastUsed ≤ now
  hit : ∀ e, Assoc.get s.entries key = some e → now - e.lastUsed < s.idleEviction →
    r.1 = e.breaker ∧ KeepsOthers s key now r fun _ => False
  insert : (∀ e, Assoc.get s.entries key = some e → s.idleEviction ≤ now - e.lastUsed) →
    (s.live now).length < s.maxEntries →
      lastUse uses r.1 = none ∧ KeepsOthers s key now r fun _ => False
  evict : (∀ e, Assoc.get s.entries key = some e → s.idleEviction ≤ now - e.lastUsed) →
    s.maxEntries ≤ (s.live now).length →
      lastUse uses r.1 = none ∧ ∃ victim ∈ s.live now,
        (∀ e ∈ s.live now, victim.2.lastUsed ≤ e.2.lastUsed) ∧
        KeepsOthers s key now r fun k => k = victim.1

theorem get_live (hd : (s.entries.map Prod.fst).Nodup) {k : κ} {e : EndpointEntry} :
    Assoc.get (s.live now) k = some e ↔
      Assoc.get s.entries k = some e ∧ now - e.lastUsed < s.idleEviction := by
  have hlive : ((s.live now).map Prod.fst).Nodup := Assoc.nodup_keys_filter hd
  rw [Assoc.get_eq_some_iff hlive, Assoc.get_eq_some_iff hd]
  exact mem_live

theorem get_live_eq_none (hd : (s.entries.map Prod.fst).Nodup) {k : κ} :
    Assoc.get (s.live now) k = none ↔
      ∀ e, Assoc.get s.entries k = some e → s.idleEviction ≤ now - e.lastUsed := by
  rw [Option.eq_none_iff_forall_ne_some]
  refine forall_congr' fun e => ?_
  rw [Ne, get_live hd]
  constructor
  · exact fun h hget => Nat.le_of_not_lt fun hlt => h ⟨hget, hlt⟩
  · exact fun h hlive => absurd (h hlive.1) (Nat.not_le.mpr hlive.2)

theorem keepsOthers_upsert (hd : (s.entries.map Prod.fst).Nodup) {l : List (κ × EndpointEntry)}
    {except : κ → Prop} [DecidablePred except] {v : EndpointEntry} {breaker created : Nat}
    (hl : ∀ k, Assoc.get l k = if except k then none else Assoc.get (s.live now) k) :
    KeepsOthers s key now (breaker, { s with
      entries := Assoc.upsert key (fun _ => v) l
      created := created }) except := by
  intro k e hk
  rw [Assoc.get_upsert, if_neg hk, hl, ← and_assoc, ← get_live hd]
  by_cases h : except k
  · rw [if_pos h]
    exact ⟨nofun, fun hno => absurd h hno.2⟩
  · rw [if_neg h]
    exact ⟨fun hget => ⟨hget, h⟩, fun hget => hget.1⟩

omit [DecidableEq κ] in
theorem Kept.lastUse_created (h : Kept maxEntries idleEviction s uses) :
    lastUse uses s.created = none := by
  rw [Option.eq_none_iff_forall_ne_some]
  intro t ht
  exact Nat.lt_irrefl _ (h.made _ (mem_of_lastUse ht))

/-- One lookup, of a store that a run has left. -/
theorem Kept.boundedLookup (h : Kept maxEntries idleEviction s uses) (hr : Served s key now r)
    (hnow : ∀ u ∈ uses, u.1 ≤ now) : BoundedLookup s uses key now r := by
  have hnever (k : κ) : Assoc.get (s.live now) k =
      if (fun _ => False : κ → Prop) k then none else Assoc.get (s.live now) k := by
    rw [if_neg id]
  refine ⟨h.limit ▸ h.length_served hr, fun k e hget => h.used _ (Assoc.mem_of_get hget), ?_,
    ⟨?_, fun e he => ?_⟩, ?_, ?_, ?_⟩
  · intro t ht
    cases hr with
    | hit hget =>
      obtain ⟨hstored, hfresh⟩ := (get_live h.nodup).mp hget
      obtain rfl := Option.some.inj ((h.used _ (Assoc.mem_of_get hstored)).symm.trans ht)
      exact hfresh
    | insert _ _ => exact absurd (h.lastUse_created.symm.trans ht) nofun
    | evict _ _ _ _ => exact absurd (h.lastUse_created.symm.trans ht) nofun
  · cases hr with
    | hit _ => exact (Assoc.get_upsert _ _ _ _).trans (if_pos rfl)
    | insert _ _ => exact (Assoc.get_upsert _ _ _ _).trans (if_pos rfl)
    | evict _ _ _ _ => exact (Assoc.get_upsert _ _ _ _).trans (if_pos rfl)
  · rcases h.mem_served hr he with rfl | ⟨-, hlive⟩
    · exact Nat.le_refl _
    · exact hnow _ (mem_of_lastUse (h.used e ((mem_live).mp hlive).1))
  · intro e hstored hfresh
    have hlive := (get_live h.nodup).mpr ⟨hstored, hfresh⟩
    cases hr with
    | hit hget =>
      obtain rfl := Option.some.inj (hget.symm.trans hlive)
      exact ⟨rfl, keepsOthers_upsert h.nodup hnever⟩
    | insert hnone _ => exact absurd (hnone.symm.trans hlive) nofun
    | evict hnone _ _ _ => exact absurd (hnone.symm.trans hlive) nofun
  · intro hidle hroom
    have hnone := (get_live_eq_none h.nodup).mpr hidle
    cases hr with
    | hit hget => exact absurd (hnone.symm.trans hget) nofun
    | insert _ _ => exact ⟨h.lastUse_created, keepsOthers_upsert h.nodup hnever⟩
    | evict _ hfull _ _ => exact absurd hroom (Nat.not_lt.mpr hfull)
  · intro hidle hfull
    have hnone := (get_live_eq_none h.nodup).mpr hidle
    cases hr with
    | hit hget => exact absurd (hnone.symm.trans hget) nofun
    | insert _ hroom => exact absurd hroom (Nat.not_lt.mpr hfull)
    | @evict _ _ victim hvictim holdest =>
      refine ⟨h.lastUse_created, victim, hvictim, holdest, ?_⟩
      exact keepsOthers_upsert h.nodup fun k => Assoc.get_remove _ _ _

theorem mem_after_uses {earlier : List (Lookup κ)} {u : Nat × Nat}
    (hu : u ∈ (after maxEntries idleEviction earlier).2) : ∃ l ∈ earlier, l.now = u.1 := by
  induction earlier with
  | nil => cases hu
  | cons l earlier ih =>
    rcases List.mem_cons.mp hu with rfl | hu
    · exact ⟨l, List.mem_cons_self, rfl⟩
    · obtain ⟨l', hl', heq⟩ := ih hu
      exact ⟨l', List.mem_cons_of_mem l hl', heq⟩

/-- **The store is bounded and forgets the idle and the least recently used.** -/
theorem bounded_lookups (hmax : 0 < maxEntries) {l : Lookup κ} {earlier : List (Lookup κ)}
    (horder : (l :: earlier).Pairwise fun a b => b.now ≤ a.now) :
    let s := (after maxEntries idleEviction earlier).1
    s.maxEntries = maxEntries ∧ s.idleEviction = idleEviction ∧
      BoundedLookup s (after maxEntries idleEviction earlier).2 l.key l.now
        (s.getOrInsert l.key l.now l.tie) := by
  intro s
  have hkept : Kept maxEntries idleEviction s (after maxEntries idleEviction earlier).2 :=
    kept_after hmax earlier
  refine ⟨hkept.limit, hkept.idle,
    hkept.boundedLookup (served_getOrInsert (by rwa [hkept.limit])) fun u hu => ?_⟩
  obtain ⟨l', hl', heq⟩ := mem_after_uses hu
  rw [← heq]
  exact (List.pairwise_cons.mp horder).1 l' hl'

/-- The third key of a store for two takes the place of the first. -/
theorem bounded_lookups_third :
    let s := (after 2 10 [⟨"b", 4, 0⟩, ⟨"a", 3, 0⟩]).1
    (s.getOrInsert "c" 5 0).2.entries.map Prod.fst = ["b", "c"] ∧
      BoundedLookup s (after 2 10 [⟨"b", 4, 0⟩, ⟨"a", 3, 0⟩]).2 "c" 5 (s.getOrInsert "c" 5 0) := by
  intro s
  refine ⟨by decide +kernel, ?_⟩
  exact (@bounded_lookups String _ 2 10 (by decide) ⟨"c", 5, 0⟩ [⟨"b", 4, 0⟩, ⟨"a", 3, 0⟩]
    (by decide)).2.2

end EndpointBreakerStore

end Fusen.Resilience
