import Fusen.Client.EndpointBreakers
import Mathlib.Data.List.Dedup

/-!
# The membership of endpoint breakers

`Inv` ties the three views together: the sets of the selectors, the reference
counts and the store.  `membership_bookkeeping` is what it gives over whole runs.
-/

namespace Fusen.Client

open Lib Resilience

/-! ## Reference counts -/

/-- How many selectors have the endpoint. -/
def DiscoveryMemberships.ownersOf (m : DiscoveryMemberships) (e : DiscoveryEndpoint) : Nat :=
  m.owners.countP fun o => o.2.contains e

/-- The references are the counts, without the endpoints of count zero. -/
def Represents (references : List (DiscoveryEndpoint × Nat)) (count : DiscoveryEndpoint → Nat) :
    Prop :=
  ∀ e, Assoc.get references e = if count e = 0 then none else some (count e)

theorem Represents.congr {references : List (DiscoveryEndpoint × Nat)}
    {count count' : DiscoveryEndpoint → Nat} (h : Represents references count)
    (he : ∀ e, count e = count' e) : Represents references count' := by
  intro e
  rw [h e, he e]

theorem represents_increment {references : List (DiscoveryEndpoint × Nat)}
    {count : DiscoveryEndpoint → Nat} {endpoints : List DiscoveryEndpoint}
    (h : Represents references count) (hd : endpoints.Nodup) :
    Represents (incrementReferences references endpoints)
      fun e => count e + if e ∈ endpoints then 1 else 0 := by
  induction endpoints generalizing references count with
  | nil => exact h
  | cons x endpoints ih =>
    rw [List.nodup_cons] at hd
    have hx : Represents (Assoc.upsert x (fun n => n.getD 0 + 1) references)
        fun e => count e + if e = x then 1 else 0 := by
      intro e
      rw [Assoc.get_upsert, h x, h e]
      by_cases he : e = x
      · subst he
        by_cases hz : count e = 0 <;> simp [hz]
      · simp [he]
    refine (ih hx hd.2).congr fun e => ?_
    by_cases he : e = x
    · subst he
      simp [hd.1]
    · simp [he]

/-- Taking one reference from each endpoint leaves the counts less one, and the
endpoints of count one are those that go. -/
theorem represents_decrement {references : List (DiscoveryEndpoint × Nat)}
    {count : DiscoveryEndpoint → Nat} {endpoints : List DiscoveryEndpoint}
    (h : Represents references count) (hd : endpoints.Nodup) (hpos : ∀ e ∈ endpoints, 0 < count e) :
    Represents (decrementReferences references endpoints).1
        (fun e => count e - if e ∈ endpoints then 1 else 0) ∧
      ∀ e, e ∈ (decrementReferences references endpoints).2 ↔ e ∈ endpoints ∧ count e = 1 := by
  induction endpoints generalizing references count with
  | nil => exact ⟨h, fun e => by simp [decrementReferences]⟩
  | cons x endpoints ih =>
    rw [List.nodup_cons] at hd
    have hx := hpos x List.mem_cons_self
    have hget : Assoc.get references x = some (count x) := by
      rw [h x, if_neg (by omega)]
    -- the counts after the first endpoint, and what the others see of them
    let count' : DiscoveryEndpoint → Nat := fun e => count e - if e = x then 1 else 0
    have hsame {e : DiscoveryEndpoint} (he : e ∈ endpoints) : count' e = count e := by
      have hne : e ≠ x := fun heq => hd.1 (heq ▸ he)
      simp [count', hne]
    have hpos' : ∀ e ∈ endpoints, 0 < count' e := fun e he => by
      rw [hsame he]
      exact hpos e (List.mem_cons_of_mem _ he)
    have hcount (e : DiscoveryEndpoint) :
        count' e - (if e ∈ endpoints then 1 else 0) =
          count e - if e ∈ x :: endpoints then 1 else 0 := by
      by_cases he : e = x
      · subst he
        simp [count', hd.1]
      · simp [count', he]
    simp only [decrementReferences, hget]
    split
    · rename_i hgt
      have hrep : Represents (Assoc.upsert x (fun _ => count x - 1) references) count' := by
        intro e
        rw [Assoc.get_upsert, h e]
        by_cases he : e = x
        · subst he
          simp only [count', if_true]
          rw [if_neg (by omega)]
        · simp [count', he]
      obtain ⟨hrep', hev⟩ := ih hrep hd.2 hpos'
      refine ⟨hrep'.congr hcount, fun e => ?_⟩
      rw [hev e, List.mem_cons]
      constructor
      · rintro ⟨he, hone⟩
        exact ⟨.inr he, hsame he ▸ hone⟩
      · rintro ⟨rfl | he, hone⟩
        · omega
        · exact ⟨he, (hsame he).trans hone⟩
    · rename_i hle
      have hone : count x = 1 := by omega
      have hrep : Represents (Assoc.remove x references) count' := by
        intro e
        rw [Assoc.get_remove, h e]
        by_cases he : e = x
        · subst he
          simp [count', hone]
        · simp [count', he]
      obtain ⟨hrep', hev⟩ := ih hrep hd.2 hpos'
      refine ⟨hrep'.congr hcount, fun e => ?_⟩
      simp only [List.mem_cons, hev e]
      constructor
      · rintro (rfl | ⟨he, h1⟩)
        · exact ⟨.inl rfl, hone⟩
        · exact ⟨.inr he, hsame he ▸ h1⟩
      · rintro ⟨rfl | he, h1⟩
        · exact .inl rfl
        · exact .inr ⟨he, (hsame he).trans h1⟩

/-! ## The three views -/

namespace EndpointBreakers

/-- What every operation keeps. -/
structure Inv (s : EndpointBreakers) : Prop where
  owners : (s.memberships.owners.map Prod.fst).Nodup
  sets : ∀ o ∈ s.memberships.owners, o.2.Nodup
  store : (s.store.entries.map Prod.fst).Nodup
  references : Represents s.memberships.references s.memberships.ownersOf
  cached : ∀ key b, s.store.cached key = some b → key.source = .discovery →
    0 < s.memberships.ownersOf key.member

/-- The set of a selector, empty where it has none. -/
def endpointsOf (s : EndpointBreakers) (selector : ServiceSelector) : List DiscoveryEndpoint :=
  (Assoc.get s.memberships.owners selector).getD []

variable {s : EndpointBreakers} {selector : ServiceSelector} {instances : List ServiceInstance}

/-- How many other selectors have the endpoint. -/
def othersOf (s : EndpointBreakers) (selector : ServiceSelector) (e : DiscoveryEndpoint) : Nat :=
  (Assoc.remove selector s.memberships.owners).countP fun o => o.2.contains e

theorem ownersOf_eq (h : s.Inv) (selector : ServiceSelector) (e : DiscoveryEndpoint) :
    s.memberships.ownersOf e =
      s.othersOf selector e + if e ∈ s.endpointsOf selector then 1 else 0 := by
  have hc := Assoc.countP_eq_remove (fun set => set.contains e) h.owners selector
  unfold DiscoveryMemberships.ownersOf othersOf endpointsOf
  rw [hc]
  cases Assoc.get s.memberships.owners selector <;> simp

theorem nodup_endpointsOf (h : s.Inv) (selector : ServiceSelector) :
    (s.endpointsOf selector).Nodup := by
  unfold endpointsOf
  cases hget : Assoc.get s.memberships.owners selector with
  | none => exact List.nodup_nil
  | some set => exact h.sets _ (Assoc.mem_of_get hget)

theorem notMem_remove (owners : List (ServiceSelector × List DiscoveryEndpoint))
    (selector : ServiceSelector) : selector ∉ (Assoc.remove selector owners).map Prod.fst := by
  rw [← Assoc.get_eq_none_iff, Assoc.get_remove, if_pos rfl]

theorem mem_difference {previous current : List DiscoveryEndpoint} {e : DiscoveryEndpoint} :
    e ∈ difference previous current ↔ e ∈ previous ∧ e ∉ current := by
  simp [difference]

theorem nodup_difference {previous current : List DiscoveryEndpoint} (h : previous.Nodup) :
    (difference previous current).Nodup :=
  h.filter _

theorem nodup_endpointSet : (endpointSet selector instances).Nodup := List.nodup_dedup _

/-- A store without the evicted endpoints has cached what it had, of other keys. -/
theorem cached_removeCached {store : EndpointBreakerStore EndpointBreakerKey}
    {evicted : List DiscoveryEndpoint} (key : EndpointBreakerKey) :
    (removeCached store evicted).cached key =
      if key.source = .discovery ∧ key.member ∈ evicted then none else store.cached key := by
  unfold removeCached
  rw [EndpointBreakerStore.cached_retain]
  by_cases hs : key.source = .discovery <;> by_cases he : key.member ∈ evicted <;> simp [hs, he]

theorem ownersOf_replaceDiscovery (s : EndpointBreakers) (selector : ServiceSelector)
    (instances : List ServiceInstance) (e : DiscoveryEndpoint) :
    (s.replaceDiscovery selector instances).memberships.ownersOf e =
      s.othersOf selector e + if e ∈ endpointSet selector instances then 1 else 0 := by
  have hadd := Assoc.upsert_of_notMem (f := fun _ => endpointSet selector instances)
    (notMem_remove s.memberships.owners selector)
  simp only [replaceDiscovery, DiscoveryMemberships.ownersOf, othersOf, hadd, List.countP_append]
  simp

theorem ownersOf_removeDiscovery (s : EndpointBreakers) (selector : ServiceSelector)
    (e : DiscoveryEndpoint) :
    (s.removeDiscovery selector).memberships.ownersOf e = s.othersOf selector e := rfl

/-- A snapshot replaces the set of its selector, and no other. -/
theorem endpointsOf_replaceDiscovery (s : EndpointBreakers) (selector : ServiceSelector)
    (instances : List ServiceInstance) (other : ServiceSelector) :
    (s.replaceDiscovery selector instances).endpointsOf other =
      if other = selector then endpointSet selector instances else s.endpointsOf other := by
  unfold endpointsOf replaceDiscovery
  dsimp only
  rw [Assoc.get_upsert, Assoc.get_remove]
  by_cases hother : other = selector
  · rw [if_pos hother, if_pos hother]
    rfl
  · rw [if_neg hother, if_neg hother, if_neg hother]

theorem endpointsOf_removeDiscovery (s : EndpointBreakers) (selector other : ServiceSelector) :
    (s.removeDiscovery selector).endpointsOf other =
      if other = selector then [] else s.endpointsOf other := by
  unfold endpointsOf removeDiscovery
  dsimp only
  rw [Assoc.get_remove]
  by_cases hother : other = selector
  · rw [if_pos hother, if_pos hother]
    rfl
  · rw [if_neg hother, if_neg hother]

/-- The references of a selector are taken from those of its endpoints that are in `gone`. -/
theorem represents_decrement_owned (h : s.Inv) (selector : ServiceSelector)
    {gone : List DiscoveryEndpoint} (hd : gone.Nodup)
    (hown : ∀ e ∈ gone, e ∈ s.endpointsOf selector) :
    Represents (decrementReferences s.memberships.references gone).1
        (fun e => s.memberships.ownersOf e - if e ∈ gone then 1 else 0) ∧
      ∀ e, e ∈ (decrementReferences s.memberships.references gone).2 ↔
        e ∈ gone ∧ s.othersOf selector e = 0 := by
  have hcount : ∀ e ∈ gone, s.memberships.ownersOf e = s.othersOf selector e + 1 := by
    intro e he
    rw [ownersOf_eq h selector e, if_pos (hown e he)]
  obtain ⟨hrep, hev⟩ := represents_decrement h.references hd fun e he => by
    rw [hcount e he]
    omega
  refine ⟨hrep, fun e => ?_⟩
  rw [hev e]
  refine and_congr_right fun he => ?_
  rw [hcount e he]
  omega

/-- What a change of membership does to the cached breakers. -/
def DropsUnowned (s s' : EndpointBreakers) : Prop :=
  ∀ key, s'.store.cached key =
    if key.source = .discovery ∧ 0 < s.memberships.ownersOf key.member ∧
        s'.memberships.ownersOf key.member = 0 then none
    else s.store.cached key

theorem dropsUnowned_replaceDiscovery (h : s.Inv) (selector : ServiceSelector)
    (instances : List ServiceInstance) :
    s.DropsUnowned (s.replaceDiscovery selector instances) := by
  obtain ⟨-, hev⟩ := represents_decrement_owned h selector
    (nodup_difference (nodup_endpointsOf h selector)) fun e he => ((mem_difference).mp he).1
  intro key
  change (removeCached s.store _).cached key = _
  rw [cached_removeCached]
  refine if_congr (and_congr_right fun _ => ?_) rfl rfl
  rw [ownersOf_replaceDiscovery, ownersOf_eq h selector]
  refine (hev key.member).trans ?_
  rw [mem_difference]
  by_cases hp : key.member ∈ s.endpointsOf selector <;>
    by_cases hc : key.member ∈ endpointSet selector instances <;> (simp [hp, hc]; try omega)

theorem dropsUnowned_removeDiscovery (h : s.Inv) (selector : ServiceSelector) :
    s.DropsUnowned (s.removeDiscovery selector) := by
  obtain ⟨-, hev⟩ := represents_decrement_owned h selector
    (nodup_endpointsOf h selector) fun e he => he
  intro key
  change (removeCached s.store _).cached key = _
  rw [cached_removeCached]
  refine if_congr (and_congr_right fun _ => ?_) rfl rfl
  rw [ownersOf_removeDiscovery, ownersOf_eq h selector]
  refine (hev key.member).trans ?_
  by_cases hp : key.member ∈ s.endpointsOf selector <;> (simp [hp]; try omega)

/-- Where the unowned are dropped, whatever is cached is owned. -/
theorem DropsUnowned.cached_owned {s' : EndpointBreakers} (hdrop : s.DropsUnowned s') (h : s.Inv)
    {key : EndpointBreakerKey} {b : Nat} (hc : s'.store.cached key = some b)
    (hs : key.source = .discovery) : 0 < s'.memberships.ownersOf key.member := by
  rw [hdrop key] at hc
  split at hc
  · cases hc
  · rename_i hkeep
    have howned := h.cached key b hc hs
    by_contra hzero
    exact hkeep ⟨hs, howned, by omega⟩

/-- **The membership invariant is kept when a snapshot arrives.** -/
theorem Inv.replaceDiscovery (h : s.Inv) (selector : ServiceSelector)
    (instances : List ServiceInstance) : (s.replaceDiscovery selector instances).Inv := by
  obtain ⟨hdec, -⟩ := represents_decrement_owned h selector
    (nodup_difference (nodup_endpointsOf h selector)) fun e he => ((mem_difference).mp he).1
  have hadded : (difference (endpointSet selector instances) (s.endpointsOf selector)).Nodup :=
    nodup_difference nodup_endpointSet
  refine ⟨?_, ?_, Assoc.nodup_keys_filter h.store, ?_, fun key b hc hs =>
    (dropsUnowned_replaceDiscovery h selector instances).cached_owned h hc hs⟩
  · exact Assoc.nodup_keys_upsert (Assoc.nodup_keys_filter h.owners)
  · intro o ho
    have hadd := Assoc.upsert_of_notMem (f := fun _ => endpointSet selector instances)
      (notMem_remove s.memberships.owners selector)
    change o ∈ Assoc.upsert selector (fun _ => endpointSet selector instances) _ at ho
    rw [hadd, List.mem_append, List.mem_singleton] at ho
    rcases ho with ho | rfl
    · exact h.sets o (List.mem_of_mem_filter ho)
    · exact nodup_endpointSet
  · refine (represents_increment hdec hadded).congr fun e => ?_
    simp only [ownersOf_replaceDiscovery, ownersOf_eq h selector e, mem_difference]
    by_cases hp : e ∈ s.endpointsOf selector <;>
      by_cases hc : e ∈ endpointSet selector instances <;> simp [hp, hc]

/-- **The membership invariant is kept when a selector goes.** -/
theorem Inv.removeDiscovery (h : s.Inv) (selector : ServiceSelector) :
    (s.removeDiscovery selector).Inv := by
  obtain ⟨hdec, -⟩ := represents_decrement_owned h selector
    (nodup_endpointsOf h selector) fun e he => he
  refine ⟨Assoc.nodup_keys_filter h.owners, ?_, Assoc.nodup_keys_filter h.store, ?_,
    fun key b hc hs => (dropsUnowned_removeDiscovery h selector).cached_owned h hc hs⟩
  · intro o ho
    exact h.sets o (List.mem_of_mem_filter ho)
  · refine hdec.congr fun e => ?_
    rw [ownersOf_removeDiscovery, ownersOf_eq h selector e]
    omega

theorem Inv.getOrInsertObserved (h : s.Inv) (key : EndpointBreakerKey) (now tie : Nat) :
    (s.getOrInsertObserved key now tie).2.Inv := by
  unfold EndpointBreakers.getOrInsertObserved
  split
  · rename_i hmay
    refine ⟨h.owners, h.sets, EndpointBreakerStore.nodup_getOrInsert h.store, h.references, ?_⟩
    intro key' b hc hs
    rcases EndpointBreakerStore.cached_of_getOrInsert h.store hc with rfl | hc
    · -- the key is new in the store only if it has a reference
      rcases hmay with hdirect | href
      · rw [hs] at hdirect
        cases hdirect
      · rw [h.references key'.member] at href
        show 0 < s.memberships.ownersOf key'.member
        by_contra hzero
        rw [if_pos (by omega)] at href
        cases href
    · exact h.cached key' b hc hs
  · exact ⟨h.owners, h.sets, h.store, h.references, h.cached⟩

theorem Inv.step (h : s.Inv) (e : BreakersEvent) : (s.step e).Inv := by
  cases e with
  | replaceDiscovery selector instances => exact h.replaceDiscovery selector instances
  | removeDiscovery selector => exact h.removeDiscovery selector
  | lookup key now tie => exact h.getOrInsertObserved key now tie

theorem inv_new (maxEntries idleEviction : Nat) : (new maxEntries idleEviction).Inv := by
  refine ⟨List.nodup_nil, ?_, List.nodup_nil, fun _ => rfl, ?_⟩
  · intro o ho
    cases ho
  · intro key b hc hs
    cases hc

theorem inv_run (maxEntries idleEviction : Nat) (es : List BreakersEvent) :
    ((endpointBreakers maxEntries idleEviction).run es).Inv :=
  (endpointBreakers maxEntries idleEviction).invariant (inv_new maxEntries idleEviction)
    (fun _ e h => h.step e) es

/-! ## The breaker of a key over time -/

/-- The key may be cached: it is a direct one, or one that a selector has. -/
def Live (s : EndpointBreakers) (key : EndpointBreakerKey) : Prop :=
  key.source = .direct ∨ 0 < s.memberships.ownersOf key.member

/-- The operation evicts the key from the bounded store. -/
def Evicts (s : EndpointBreakers) (key : EndpointBreakerKey) : BreakersEvent → Prop
  | .lookup key' now tie => s.Live key' ∧ s.store.Evicts key' now tie key
  | .replaceDiscovery .. | .removeDiscovery .. => False

variable {key : EndpointBreakerKey} {now tie b : Nat}

theorem live_iff (h : s.Inv) : s.Live key ↔
    key.source = .direct ∨ (Assoc.get s.memberships.references key.member).isSome := by
  unfold Live
  rw [h.references key.member]
  by_cases hz : s.memberships.ownersOf key.member = 0
  · simp [hz]
  · simp [hz, Nat.pos_of_ne_zero hz]

theorem memberships_lookup (s : EndpointBreakers) (key : EndpointBreakerKey) (now tie : Nat) :
    (s.getOrInsertObserved key now tie).2.memberships = s.memberships := by
  unfold getOrInsertObserved
  split <;> rfl

theorem live_lookup {key' : EndpointBreakerKey} :
    (s.step (.lookup key' now tie)).Live key ↔ s.Live key := by
  show _ ∨ 0 < (s.getOrInsertObserved key' now tie).2.memberships.ownersOf key.member ↔ _
  rw [memberships_lookup]
  exact Iff.rfl

/-- A lookup of a live key caches what it returns. -/
theorem cached_lookup (h : s.Inv) (hl : s.Live key) (now tie : Nat) :
    (s.step (.lookup key now tie)).store.cached key =
      some (s.getOrInsertObserved key now tie).1 := by
  simp only [EndpointBreakers.step, getOrInsertObserved, if_pos ((live_iff h).mp hl)]
  rw [EndpointBreakerStore.cached_getOrInsert, if_pos rfl]

/-- A lookup that does not evict the key returns the breaker cached for it. -/
theorem lookup_of_cached (h : s.Inv) (hl : s.Live key) (hc : s.store.cached key = some b)
    (hk : ¬ s.Evicts key (.lookup key now tie)) : (s.getOrInsertObserved key now tie).1 = b := by
  have hkeep : ¬ s.store.Evicts key now tie key := fun he => hk ⟨hl, he⟩
  simp only [getOrInsertObserved, if_pos ((live_iff h).mp hl)]
  exact EndpointBreakerStore.getOrInsert_of_cached h.store hkeep hc

/-- A change of membership leaves what is cached for the keys that stay live. -/
theorem DropsUnowned.cached_live {s' : EndpointBreakers} (hdrop : s.DropsUnowned s')
    (hl : s'.Live key) : s'.store.cached key = s.store.cached key := by
  rw [hdrop key, if_neg]
  rintro ⟨hs, -, hzero⟩
  rcases hl with hdirect | howned
  · rw [hs] at hdirect
    cases hdirect
  · omega

/-- A key that is live after an operation which does not evict it keeps its breaker. -/
theorem cached_step (h : s.Inv) {e : BreakersEvent} (hl : (s.step e).Live key)
    (hk : ¬ s.Evicts key e) (hc : s.store.cached key = some b) :
    (s.step e).store.cached key = some b := by
  cases e with
  | replaceDiscovery selector instances =>
    exact ((dropsUnowned_replaceDiscovery h selector instances).cached_live hl).trans hc
  | removeDiscovery selector =>
    exact ((dropsUnowned_removeDiscovery h selector).cached_live hl).trans hc
  | lookup key' now tie =>
    unfold EndpointBreakers.step getOrInsertObserved
    dsimp only
    split
    · rename_i hmay
      have hkeep : ¬ s.store.Evicts key' now tie key := fun he => hk ⟨(live_iff h).mpr hmay, he⟩
      exact EndpointBreakerStore.cached_getOrInsert_of_kept h.store hkeep hc
    · exact hc

end EndpointBreakers

/-! ## Whole runs -/

section Runs

variable {maxEntries idleEviction : Nat}

/-- After `es`, and as long as the operations `later` last, the key is live and is not
evicted. -/
def Undisturbed (maxEntries idleEviction : Nat) (es later : List BreakersEvent)
    (key : EndpointBreakerKey) : Prop :=
  ∀ before e after, later = before ++ e :: after →
    ((endpointBreakers maxEntries idleEviction).run (es ++ before ++ [e])).Live key ∧
      ¬ ((endpointBreakers maxEntries idleEviction).run (es ++ before)).Evicts key e

theorem cached_undisturbed {es later : List BreakersEvent} {key : EndpointBreakerKey} {b : Nat}
    (hc : ((endpointBreakers maxEntries idleEviction).run es).store.cached key = some b)
    (h : Undisturbed maxEntries idleEviction es later key) :
    ((endpointBreakers maxEntries idleEviction).run (es ++ later)).store.cached key = some b := by
  induction later using List.reverseRecOn with
  | nil => rwa [List.append_nil]
  | append_singleton later e ih =>
    have hbefore : Undisturbed maxEntries idleEviction es later key := by
      rintro before e' after rfl
      exact h before e' (after ++ [e]) (by simp)
    obtain ⟨hl, hk⟩ := h later e [] rfl
    rw [Machine.run_concat] at hl
    rw [← List.append_assoc, Machine.run_concat]
    exact EndpointBreakers.cached_step (EndpointBreakers.inv_run _ _ _) hl hk (ih hbefore)

end Runs

/-- The selector of one service identity, with metadata. -/
def catalog (metadata : List (Text × Text)) : ServiceSelector :=
  ⟨"catalog".toList, none, none, metadata⟩

def nodeA : ServiceInstance := ⟨"a".toList, "http://a".toList⟩

def nodeAKey : EndpointBreakerKey :=
  ⟨"catalog".toList, "main".toList, .discovery, "http://a".toList⟩

/-- Two selectors of one identity get the endpoint, one of them twice in its snapshot. -/
def twoOwners : List BreakersEvent :=
  [.replaceDiscovery (catalog []) [nodeA],
    .replaceDiscovery (catalog [("zone".toList, "b".toList)]) [nodeA, nodeA]]

end Fusen.Client
