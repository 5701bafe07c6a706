import Fusen.Client.BreakerMembership
import Fusen.Client.Subscription
import Fusen.Contract.Registration
import Fusen.Lib.Interned

/-!
# State that is kept by service (`client/runtime.rs`, `server/mod.rs`)

Breakers, retry budgets, discovery membership and the duplicate check of the server all
find their state by the text of a service identity.  `service_identities_unambiguous`:
the text names the service, its group and its version, so different services never meet
in one state, over any run.
-/

namespace Fusen

open Lib

/-! ## Identities -/

namespace Contract

/-- The selectors name one service; their metadata may differ. -/
def SameService (s s' : ServiceSelector) : Prop :=
  s.serviceId = s'.serviceId ∧ s.group = s'.group ∧ s.version = s'.version

/-- An optional part of an identity, behind its separator. -/
def partText (separator : Char) (part : Option Text) : Text :=
  match part with
  | some t => separator :: t
  | none => []

@[simp] theorem partText_none (separator : Char) : partText separator none = [] := rfl

@[simp] theorem partText_some (separator : Char) (t : Text) :
    partText separator (some t) = separator :: t := rfl

theorem notMem_partText {separator c : Char} {part : Option Text} (hc : c ≠ separator)
    (h : ∀ t ∈ part, c ∉ t) : c ∉ partText separator part := by
  cases part with
  | none => exact List.not_mem_nil
  | some t =>
    intro hm
    rcases List.mem_cons.mp hm with heq | hin
    · exact hc heq
    · exact h t rfl hin

/-- Behind a text without the separator, the part can be read off. -/
theorem append_partText_inj {separator : Char} {s s' : Text} {part part' : Option Text}
    (h : separator ∉ s) (h' : separator ∉ s')
    (heq : s ++ partText separator part = s' ++ partText separator part') :
    s = s' ∧ part = part' := by
  cases part with
  | none =>
    cases part' with
    | none => exact ⟨by simpa using heq, rfl⟩
    | some t' =>
      rw [partText_none, partText_some, List.append_nil] at heq
      exact absurd (heq ▸ List.mem_append_right s' List.mem_cons_self) h
  | some t =>
    cases part' with
    | none =>
      rw [partText_none, partText_some, List.append_nil] at heq
      exact absurd (heq ▸ List.mem_append_right s List.mem_cons_self) h'
    | some t' =>
      obtain ⟨hs, ht⟩ := append_cons_inj h h' heq
      exact ⟨hs, congrArg some ht⟩

namespace ServiceSelector

theorem identity_eq (s : ServiceSelector) :
    s.identity = (s.serviceId ++ partText '/' s.group) ++ partText '@' s.version := rfl

/-- A separator is no character of a component. -/
theorem notMem_front (s : ServiceSelector) {c : Char} (hc : isIdentityChar c = false)
    (hslash : c ≠ '/') : c ∉ s.serviceId ++ partText '/' s.group := by
  intro hm
  rcases List.mem_append.mp hm with hid | hgroup
  · exact notMem_of_isIdentityComponent s.serviceId_valid hc hid
  · refine notMem_partText hslash ?_ hgroup
    exact fun g hg => notMem_of_isIdentityComponent (s.group_valid g hg) hc

theorem nul_notMem_identity (s : ServiceSelector) : '\x00' ∉ s.identity := by
  rw [identity_eq]
  intro hm
  rcases List.mem_append.mp hm with hfront | hversion
  · exact s.notMem_front (by decide) (by decide) hfront
  · refine notMem_partText (by decide) ?_ hversion
    exact fun v hv => notMem_of_isIdentityComponent (s.version_valid v hv) (by decide)

/-- **The identity names the service, its group and its version.** -/
theorem identity_eq_iff (s s' : ServiceSelector) : s.identity = s'.identity ↔ SameService s s' := by
  constructor
  · intro h
    rw [identity_eq, identity_eq] at h
    obtain ⟨hfront, hversion⟩ := append_partText_inj (s.notMem_front (by decide) (by decide))
      (s'.notMem_front (by decide) (by decide)) h
    obtain ⟨hid, hgroup⟩ := append_partText_inj
      (notMem_of_isIdentityComponent s.serviceId_valid (by decide))
      (notMem_of_isIdentityComponent s'.serviceId_valid (by decide)) hfront
    exact ⟨hid, hgroup, hversion⟩
  · rintro ⟨hid, hgroup, hversion⟩
    rw [identity_eq, identity_eq, hid, hgroup, hversion]

end ServiceSelector

def ServiceDescriptor.identity (d : ServiceDescriptor) : Text := d.selector.identity

end Contract

/-! ## Breakers and budgets of services -/

namespace Client

open Resilience
open Contract (HttpBindingId ServiceDescriptor SameService)

/-- The key of a service's breaker and of its retry budget. -/
def bindingKey (service : ServiceDescriptor) (bindingId : HttpBindingId) : Text :=
  service.identity ++ '\x00' :: bindingId.text

/-- **The key names the identity and the binding.** -/
theorem bindingKey_eq_iff (service service' : ServiceDescriptor) (b b' : HttpBindingId) :
    bindingKey service b = bindingKey service' b' ↔
      service.identity = service'.identity ∧ b = b' := by
  constructor
  · intro h
    obtain ⟨hidentity, htext⟩ := append_cons_inj service.selector.nul_notMem_identity
      service'.selector.nul_notMem_identity h
    refine ⟨hidentity, ?_⟩
    cases b
    cases b'
    congr
  · rintro ⟨hidentity, rfl⟩
    rw [bindingKey, bindingKey, hidentity]

/-- The maps of the runtime whose keys are texts of services. -/
structure ClientRuntimeInner where
  serviceBreakers : Interned Text
  retryBudgets : Interned Text

namespace ClientRuntimeInner

def serviceBreaker (r : ClientRuntimeInner) (service : ServiceDescriptor)
    (bindingId : HttpBindingId) : Nat × ClientRuntimeInner :=
  let (breaker, serviceBreakers) := r.serviceBreakers.entry (bindingKey service bindingId)
  (breaker, { r with serviceBreakers })

def retryBudget (r : ClientRuntimeInner) (service : ServiceDescriptor)
    (bindingId : HttpBindingId) : Nat × ClientRuntimeInner :=
  let (budget, retryBudgets) := r.retryBudgets.entry (bindingKey service bindingId)
  (budget, { r with retryBudgets })

end ClientRuntimeInner

inductive RuntimeEvent
  | serviceBreaker (service : ServiceDescriptor) (bindingId : HttpBindingId)
  | retryBudget (service : ServiceDescriptor) (bindingId : HttpBindingId)

def ClientRuntimeInner.step (r : ClientRuntimeInner) : RuntimeEvent → ClientRuntimeInner
  | .serviceBreaker service bindingId => (r.serviceBreaker service bindingId).2
  | .retryBudget service bindingId => (r.retryBudget service bindingId).2

def clientRuntime : Machine ClientRuntimeInner RuntimeEvent where
  init := ⟨.empty, .empty⟩
  step := .step

theorem bindingKey_eq_iff_sameService (service service' : ServiceDescriptor)
    (b b' : HttpBindingId) :
    bindingKey service b = bindingKey service' b' ↔
      SameService service.selector service'.selector ∧ b = b' := by
  rw [bindingKey_eq_iff]
  exact and_congr_left fun _ => Contract.ServiceSelector.identity_eq_iff _ _

namespace RuntimeEvent

def breakerKey : RuntimeEvent → Option Text
  | .serviceBreaker service bindingId => some (bindingKey service bindingId)
  | .retryBudget _ _ => none

def budgetKey : RuntimeEvent → Option Text
  | .serviceBreaker _ _ => none
  | .retryBudget service bindingId => some (bindingKey service bindingId)

end RuntimeEvent

theorem follows_serviceBreakers :
    Interned.Follows clientRuntime (·.serviceBreakers) RuntimeEvent.breakerKey := by
  intro r e
  cases e <;> rfl

theorem follows_retryBudgets :
    Interned.Follows clientRuntime (·.retryBudgets) RuntimeEvent.budgetKey := by
  intro r e
  cases e <;> rfl

/-- Over a run, two callers share a breaker iff they have one service and one binding. -/
theorem serviceBreaker_eq_iff (es later : List RuntimeEvent) (service service' : ServiceDescriptor)
    (b b' : HttpBindingId) :
    ((clientRuntime.run es).serviceBreaker service b).1 =
        ((clientRuntime.run (es ++ .serviceBreaker service b :: later)).serviceBreaker
          service' b').1 ↔
      SameService service.selector service'.selector ∧ b = b' := by
  rw [← bindingKey_eq_iff_sameService]
  exact Interned.run_entry_eq_iff follows_serviceBreakers rfl es later (bindingKey service' b')

/-- Over a run, two callers share a retry budget iff they have one service and one binding. -/
theorem retryBudget_eq_iff (es later : List RuntimeEvent) (service service' : ServiceDescriptor)
    (b b' : HttpBindingId) :
    ((clientRuntime.run es).retryBudget service b).1 =
        ((clientRuntime.run (es ++ .retryBudget service b :: later)).retryBudget service' b').1 ↔
      SameService service.selector service'.selector ∧ b = b' := by
  rw [← bindingKey_eq_iff_sameService]
  exact Interned.run_entry_eq_iff follows_retryBudgets rfl es later (bindingKey service' b')

/-! ## Endpoint breakers -/

def endpointBreakerKey (service : ServiceDescriptor) (bindingId : HttpBindingId)
    (source : EndpointBreakerSource) (endpoint : Text) : EndpointBreakerKey :=
  ⟨service.identity, bindingId.text, source, endpoint⟩

theorem endpointBreakerKey_eq_iff (service service' : ServiceDescriptor) (b b' : HttpBindingId)
    (source source' : EndpointBreakerSource) (endpoint endpoint' : Text) :
    endpointBreakerKey service b source endpoint = endpointBreakerKey service' b' source' endpoint' ↔
      SameService service.selector service'.selector ∧ b = b' ∧ source = source' ∧
        endpoint = endpoint' := by
  rw [← Contract.ServiceSelector.identity_eq_iff, endpointBreakerKey, endpointBreakerKey,
    EndpointBreakerKey.mk.injEq]
  refine and_congr_right fun _ => and_congr_left fun _ => ?_
  cases b
  cases b'
  rw [HttpBindingId.mk.injEq]

namespace EndpointBreakers

variable {s : EndpointBreakers} {key key' : EndpointBreakerKey} {b : Nat}

/-- The breaker `b` was made for `key` and is cached for no other key. -/
def MadeFor (s : EndpointBreakers) (b : Nat) (key : EndpointBreakerKey) : Prop :=
  b < s.store.created ∧ ∀ key', s.store.cached key' = some b → key' = key

/-- Every cached breaker was made for its key. -/
def Numbered (s : EndpointBreakers) : Prop :=
  ∀ key b, s.store.cached key = some b → s.MadeFor b key

/-- The breaker of a lookup is the one that was cached for the key, or a new one. -/
theorem lookup_cases (h : s.Inv) (key : EndpointBreakerKey) (now tie : Nat) :
    let r := s.getOrInsertObserved key now tie
    (s.store.cached key = some r.1 ∧ r.2.store.created = s.store.created ∨
        r.1 = s.store.created ∧ r.2.store.created = s.store.created + 1) ∧
      ∀ key' b, r.2.store.cached key' = some b →
        s.store.cached key' = some b ∨ key' = key ∧ b = r.1 := by
  intro r
  unfold r EndpointBreakers.getOrInsertObserved
  split
  · refine ⟨?_, ?_⟩
    · dsimp only
      unfold EndpointBreakerStore.getOrInsert
      dsimp only
      split
      · rename_i entry hentry
        exact .inl ⟨EndpointBreakerStore.cached_of_kept h.store hentry, rfl⟩
      · exact .inr ⟨rfl, rfl⟩
    · intro key' b hc
      rcases EndpointBreakerStore.cached_of_getOrInsert h.store hc with rfl | hold
      · right
        have hself : (s.store.getOrInsert key' now tie).2.cached key' =
            some (s.store.getOrInsert key' now tie).1 := by
          rw [EndpointBreakerStore.cached_getOrInsert, if_pos rfl]
        exact ⟨rfl, Option.some.inj (hc.symm.trans hself)⟩
      · exact .inl hold
  · exact ⟨.inr ⟨rfl, rfl⟩, fun key' b hc => .inl hc⟩

/-- A breaker made for `key` comes back only from a lookup of `key`. -/
theorem MadeFor.lookup_eq (hmade : s.MadeFor b key) (h : s.Inv) {now tie : Nat}
    (heq : (s.getOrInsertObserved key' now tie).1 = b) : key' = key := by
  rcases (lookup_cases h key' now tie).1 with ⟨hc, -⟩ | ⟨hnew, -⟩
  · exact hmade.2 key' (heq ▸ hc)
  · have hlt := hmade.1
    omega

/-- The breaker of a lookup was made for its key. -/
theorem madeFor_lookup (h : s.Inv) (hn : s.Numbered) (key : EndpointBreakerKey) (now tie : Nat) :
    (s.getOrInsertObserved key now tie).2.MadeFor (s.getOrInsertObserved key now tie).1 key := by
  obtain ⟨hbreaker, hcached⟩ := lookup_cases h key now tie
  rcases hbreaker with ⟨hc, hcreated⟩ | ⟨hnew, hcreated⟩
  · obtain ⟨hlt, hown⟩ := hn key _ hc
    refine ⟨by omega, fun key' hc' => ?_⟩
    rcases hcached key' _ hc' with hold | ⟨rfl, -⟩
    · exact hown key' hold
    · rfl
  · refine ⟨by omega, fun key' hc' => ?_⟩
    rcases hcached key' _ hc' with hold | ⟨rfl, -⟩
    · have hlt := (hn key' _ hold).1
      omega
    · rfl

/-- A store that only lost breakers still has those of their keys. -/
theorem MadeFor.of_cached_le {s' : EndpointBreakers} (hmade : s.MadeFor b key)
    (hcreated : s'.store.created = s.store.created)
    (hle : ∀ key b, s'.store.cached key = some b → s.store.cached key = some b) :
    s'.MadeFor b key :=
  ⟨hcreated ▸ hmade.1, fun key' hc => hmade.2 key' (hle key' b hc)⟩

theorem DropsUnowned.cached_le {s' : EndpointBreakers} (hdrop : s.DropsUnowned s')
    (key : EndpointBreakerKey) (b : Nat) (hc : s'.store.cached key = some b) :
    s.store.cached key = some b := by
  rw [hdrop key] at hc
  split at hc
  · cases hc
  · exact hc

theorem MadeFor.step (hmade : s.MadeFor b key) (h : s.Inv) (e : BreakersEvent) :
    (s.step e).MadeFor b key := by
  cases e with
  | replaceDiscovery selector instances =>
    exact hmade.of_cached_le rfl (dropsUnowned_replaceDiscovery h selector instances).cached_le
  | removeDiscovery selector =>
    exact hmade.of_cached_le rfl (dropsUnowned_removeDiscovery h selector).cached_le
  | lookup key' now tie =>
    obtain ⟨hbreaker, hcached⟩ := lookup_cases h key' now tie
    have hlt := hmade.1
    refine ⟨?_, fun key'' hc => ?_⟩
    · show b < (s.getOrInsertObserved key' now tie).2.store.created
      omega
    · rcases hcached key'' b hc with hold | ⟨rfl, heq⟩
      · exact hmade.2 key'' hold
      · exact hmade.lookup_eq h heq.symm

theorem Numbered.step (hn : s.Numbered) (h : s.Inv) (e : BreakersEvent) : (s.step e).Numbered := by
  intro key b hc
  cases e with
  | replaceDiscovery selector instances =>
    have hdrop := dropsUnowned_replaceDiscovery h selector instances
    exact (hn key b (hdrop.cached_le key b hc)).step h (.replaceDiscovery selector instances)
  | removeDiscovery selector =>
    have hdrop := dropsUnowned_removeDiscovery h selector
    exact (hn key b (hdrop.cached_le key b hc)).step h (.removeDiscovery selector)
  | lookup key' now tie =>
    rcases (lookup_cases h key' now tie).2 key b hc with hold | ⟨rfl, rfl⟩
    · exact (hn key b hold).step h (.lookup key' now tie)
    · exact madeFor_lookup h hn key now tie

theorem numbered_run (maxEntries idleEviction : Nat) (es : List BreakersEvent) :
    ((endpointBreakers maxEntries idleEviction).run es).Numbered := by
  have hboth := (endpointBreakers maxEntries idleEviction).invariant
    (I := fun s => s.Inv ∧ s.Numbered)
    ⟨inv_new maxEntries idleEviction, fun _ _ hc => by cases hc⟩
    (fun _ e h => ⟨h.1.step e, h.2.step h.1 e⟩) es
  exact hboth.2

end EndpointBreakers

/-- Over a run, two lookups with one breaker are lookups of one key. -/
theorem lookup_key_eq (maxEntries idleEviction : Nat) (es later : List BreakersEvent)
    {key key' : EndpointBreakerKey} {now tie now' tie' : Nat}
    (h : (((endpointBreakers maxEntries idleEviction).run es).getOrInsertObserved key now tie).1 =
      (((endpointBreakers maxEntries idleEviction).run
        (es ++ .lookup key now tie :: later)).getOrInsertObserved key' now' tie').1) :
    key = key' := by
  have hstart : ((endpointBreakers maxEntries idleEviction).run
      (es ++ [.lookup key now tie])).MadeFor
        (((endpointBreakers maxEntries idleEviction).run es).getOrInsertObserved key now tie).1
        key := by
    rw [Machine.run_concat]
    exact EndpointBreakers.madeFor_lookup (EndpointBreakers.inv_run maxEntries idleEviction es)
      (EndpointBreakers.numbered_run maxEntries idleEviction es) key now tie
  have hlater := (endpointBreakers maxEntries idleEviction).stable
    (I := fun s => s.MadeFor _ key) (EndpointBreakers.inv_run maxEntries idleEviction)
    (fun _ e hinv hmade => hmade.step hinv e) hstart later
  rw [List.append_assoc, List.singleton_append] at hlater
  exact (hlater.lookup_eq (EndpointBreakers.inv_run _ _ _) h.symm).symm

/-! ## Discovery membership -/

/-- A validated selector, as discovery keeps it. -/
def discoverySelector (s : Contract.ServiceSelector) : ServiceSelector :=
  ⟨s.serviceId, s.group, s.version, s.metadata⟩

theorem identity_discoverySelector (s : Contract.ServiceSelector) :
    (discoverySelector s).identity = s.identity := by
  show s.serviceId ++ (s.group.map ('/' :: ·)).getD [] ++ (s.version.map ('@' :: ·)).getD [] =
    s.serviceId ++ Contract.partText '/' s.group ++ Contract.partText '@' s.version
  cases s.group <;> cases s.version <;> rfl

namespace EndpointBreakers

variable {s s' : EndpointBreakers} {selector : ServiceSelector}

/-- The set of a selector holds endpoints of its service. -/
def Labelled (s : EndpointBreakers) : Prop :=
  ∀ o ∈ s.memberships.owners, ∀ e ∈ o.2, e.service = o.1.identity

theorem service_of_mem_endpointSet {instances : List ServiceInstance} {e : DiscoveryEndpoint}
    (he : e ∈ endpointSet selector instances) : e.service = selector.identity := by
  obtain ⟨i, -, rfl⟩ := List.mem_map.mp (List.mem_dedup.mp he)
  rfl

theorem Labelled.step (h : s.Labelled) (e : BreakersEvent) : (s.step e).Labelled := by
  cases e with
  | replaceDiscovery selector instances =>
    intro o ho
    change o ∈ Assoc.upsert selector (fun _ => endpointSet selector instances) _ at ho
    rw [Assoc.upsert_of_notMem (notMem_remove s.memberships.owners selector), List.mem_append,
      List.mem_singleton] at ho
    rcases ho with hold | rfl
    · exact h o (List.mem_of_mem_filter hold)
    · exact fun e he => service_of_mem_endpointSet he
  | removeDiscovery selector => exact fun o ho => h o (List.mem_of_mem_filter ho)
  | lookup key now tie =>
    show (s.getOrInsertObserved key now tie).2.Labelled
    unfold Labelled
    rw [memberships_lookup]
    exact h

theorem labelled_run (maxEntries idleEviction : Nat) (es : List BreakersEvent) :
    ((endpointBreakers maxEntries idleEviction).run es).Labelled :=
  (endpointBreakers maxEntries idleEviction).invariant (fun _ ho => by cases ho)
    (fun _ e h => h.step e) es

/-- An endpoint of another service is in no set of the selector. -/
theorem Labelled.notMem_endpointsOf (h : s.Labelled) {e : DiscoveryEndpoint}
    (he : e.service ≠ selector.identity) : e ∉ s.endpointsOf selector := by
  intro hm
  unfold endpointsOf at hm
  cases hget : Assoc.get s.memberships.owners selector with
  | none =>
    rw [hget] at hm
    exact List.not_mem_nil hm
  | some set =>
    rw [hget] at hm
    exact he (h _ (Assoc.mem_of_get hget) e hm)

/-- The references and the cached breakers of a service are what they were. -/
structure KeepsService (s s' : EndpointBreakers) (service : Text) : Prop where
  references : ∀ endpoint, Assoc.get s'.memberships.references ⟨service, endpoint⟩ =
    Assoc.get s.memberships.references ⟨service, endpoint⟩
  cached : ∀ key, key.service = service → s'.store.cached key = s.store.cached key

theorem keepsService_of_ownersOf (h : s.Inv) (h' : s'.Inv) (hdrop : s.DropsUnowned s')
    {service : Text} (heq : ∀ e : DiscoveryEndpoint, e.service = service →
      s'.memberships.ownersOf e = s.memberships.ownersOf e) : s.KeepsService s' service := by
  refine ⟨fun endpoint => ?_, fun key hkey => ?_⟩
  · rw [h'.references, h.references, heq _ rfl]
  · rw [hdrop key, if_neg]
    rintro ⟨-, hbefore, hafter⟩
    rw [heq key.member hkey] at hafter
    omega

/-- **A change of one service's membership leaves the other services alone.** -/
theorem keepsService_step (h : s.Inv) (hl : s.Labelled) {e : BreakersEvent}
    (he : e.changes selector = true) {service : Text} (hne : service ≠ selector.identity) :
    s.KeepsService (s.step e) service := by
  have hcount : ∀ x : DiscoveryEndpoint, x.service = service →
      s.memberships.ownersOf x = s.othersOf selector x := by
    intro x hx
    rw [ownersOf_eq h selector x, if_neg (hl.notMem_endpointsOf (hx ▸ hne)), Nat.add_zero]
  cases e with
  | replaceDiscovery selector' instances =>
    obtain rfl : selector' = selector := of_decide_eq_true he
    refine keepsService_of_ownersOf h (h.replaceDiscovery selector' instances)
      (dropsUnowned_replaceDiscovery h selector' instances) fun x hx => ?_
    have hnot : x ∉ endpointSet selector' instances :=
      fun hm => hne (hx ▸ service_of_mem_endpointSet hm)
    rw [ownersOf_replaceDiscovery, hcount x hx, if_neg hnot, Nat.add_zero]
  | removeDiscovery selector' =>
    obtain rfl : selector' = selector := of_decide_eq_true he
    refine keepsService_of_ownersOf h (h.removeDiscovery selector')
      (dropsUnowned_removeDiscovery h selector') fun x hx => ?_
    rw [ownersOf_removeDiscovery, hcount x hx]
  | lookup key now tie => cases he

end EndpointBreakers

end Client

/-! ## The services of a server -/

namespace Server

open Contract (ServiceDescriptor SameService)

/-- The identities of the services in their order, `descriptors` those seen before. -/
def insertDescriptors (descriptors : List Text) :
    List ServiceDescriptor → Except Text (List Text)
  | [] => .ok descriptors
  | descriptor :: services =>
    if descriptors.contains descriptor.identity then
      .error ("duplicate service identity ".toList ++ descriptor.identity)
    else insertDescriptors (descriptor.identity :: descriptors) services

theorem insertDescriptors_ok_iff (descriptors : List Text) (services : List ServiceDescriptor) :
    (∃ all, insertDescriptors descriptors services = .ok all) ↔
      (∀ d ∈ services, d.identity ∉ descriptors) ∧
        services.Pairwise fun d d' => ¬ SameService d.selector d'.selector := by
  induction services generalizing descriptors with
  | nil => simp [insertDescriptors]
  | cons descriptor services ih =>
    have hsame : ∀ d : ServiceDescriptor,
        SameService descriptor.selector d.selector ↔ d.identity = descriptor.identity := by
      intro d
      rw [← Contract.ServiceSelector.identity_eq_iff]
      exact eq_comm
    unfold insertDescriptors
    by_cases hseen : descriptor.identity ∈ descriptors
    · rw [if_pos (List.contains_iff_mem.mpr hseen)]
      simp [hseen]
    · rw [if_neg (fun h => hseen (List.contains_iff_mem.mp h)), ih, List.pairwise_cons]
      simp only [List.mem_cons, not_or, hsame]
      constructor
      · rintro ⟨hnew, hrest⟩
        refine ⟨?_, fun d hd => (hnew d hd).1, hrest⟩
        rintro d (rfl | hd)
        · exact hseen
        · exact (hnew d hd).2
      · rintro ⟨hnew, hfirst, hrest⟩
        exact ⟨fun d hd => ⟨hfirst d hd, hnew d (.inr hd)⟩, hrest⟩

end Server

/-! ## No state is shared -/

open Client Contract in
/-- **Service identities are unambiguous.**  Two identities are one text exactly for one
service id, group and version, and two binding keys exactly for one identity and binding.
So in every run the breakers and the retry budgets of two lookups are one object exactly
for one service and binding, an endpoint breaker is that of one service, binding, source
and endpoint, a change of membership leaves the other services alone, and a server takes
a list of services exactly if no two of them are one service. -/
theorem service_identities_unambiguous :
    (∀ s s' : Contract.ServiceSelector, s.identity = s'.identity ↔
      s.serviceId = s'.serviceId ∧ s.group = s'.group ∧ s.version = s'.version) ∧
    (∀ (d d' : ServiceDescriptor) (b b' : HttpBindingId),
      bindingKey d b = bindingKey d' b' ↔ d.identity = d'.identity ∧ b = b') ∧
    (∀ (es later : List RuntimeEvent) (d d' : ServiceDescriptor) (b b' : HttpBindingId),
      (((clientRuntime.run es).serviceBreaker d b).1 =
          ((clientRuntime.run (es ++ .serviceBreaker d b :: later)).serviceBreaker d' b').1 ↔
        SameService d.selector d'.selector ∧ b = b') ∧
      (((clientRuntime.run es).retryBudget d b).1 =
          ((clientRuntime.run (es ++ .retryBudget d b :: later)).retryBudget d' b').1 ↔
        SameService d.selector d'.selector ∧ b = b')) ∧
    (∀ (maxEntries idleEviction : Nat) (es later : List BreakersEvent) (d d' : ServiceDescriptor)
      (b b' : HttpBindingId) (source source' : EndpointBreakerSource) (endpoint endpoint' : Text)
      (now tie now' tie' : Nat),
      let key := endpointBreakerKey d b source endpoint
      let key' := endpointBreakerKey d' b' source' endpoint'
      (((endpointBreakers maxEntries idleEviction).run es).getOrInsertObserved key now tie).1 =
        (((endpointBreakers maxEntries idleEviction).run
          (es ++ .lookup key now tie :: later)).getOrInsertObserved key' now' tie').1 →
      SameService d.selector d'.selector ∧ b = b' ∧ source = source' ∧ endpoint = endpoint') ∧
    (∀ (maxEntries idleEviction : Nat) (es : List BreakersEvent) (e : BreakersEvent)
      (s s' : Contract.ServiceSelector), e.changes (discoverySelector s') = true →
      ¬ SameService s s' →
      let reached := (endpointBreakers maxEntries idleEviction).run es
      reached.KeepsService (reached.step e) s.identity) ∧
    ∀ services : List ServiceDescriptor,
      (∃ all, Server.insertDescriptors [] services = .ok all) ↔
        services.Pairwise fun d d' => ¬ SameService d.selector d'.selector := by
  refine ⟨ServiceSelector.identity_eq_iff, bindingKey_eq_iff, ?_, ?_, ?_, ?_⟩
  · intro es later d d' b b'
    exact ⟨serviceBreaker_eq_iff es later d d' b b', retryBudget_eq_iff es later d d' b b'⟩
  · intro maxEntries idleEviction es later d d' b b' source source' endpoint endpoint'
      now tie now' tie' key key' h
    have hkey : key = key' := lookup_key_eq maxEntries idleEviction es later h
    exact (endpointBreakerKey_eq_iff d d' b b' source source' endpoint endpoint').mp hkey
  · intro maxEntries idleEviction es e s s' he hne
    refine EndpointBreakers.keepsService_step (EndpointBreakers.inv_run _ _ _)
      (EndpointBreakers.labelled_run _ _ _) he ?_
    rw [identity_discoverySelector]
    exact fun h => hne ((ServiceSelector.identity_eq_iff s s').mp h)
  · intro services
    rw [Server.insertDescriptors_ok_iff]
    exact and_iff_right fun _ _ => List.not_mem_nil

/-- `a/b`, the service `a` of the group `b`. -/
def grouped : Contract.ServiceSelector :=
  ⟨"a".toList, some "b".toList, none, [], by decide, by decide,
    Contract.isIdentityComponent_of_mem_none, Contract.validateUserMetadata_nil, List.nodup_nil⟩

/-- `a@b`, the service `a` of the version `b`. -/
def versioned : Contract.ServiceSelector :=
  ⟨"a".toList, none, some "b".toList, [], by decide, Contract.isIdentityComponent_of_mem_none,
    by decide, Contract.validateUserMetadata_nil, List.nodup_nil⟩

open Client in
/-- When the version goes, the group keeps its endpoints. -/
theorem service_identities_unambiguous_grouped :
    let reached :=
      (endpointBreakers 2 60).run [.replaceDiscovery (discoverySelector grouped) [nodeA]]
    reached.KeepsService (reached.step (.removeDiscovery (discoverySelector versioned)))
      grouped.identity :=
  service_identities_unambiguous.2.2.2.2.1 2 60 _ (.removeDiscovery (discoverySelector versioned))
    grouped versioned rfl (fun h => absurd h.2.1 (by decide))

end Fusen
