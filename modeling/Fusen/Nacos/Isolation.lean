import Fusen.Nacos.RoundTrip

/-!
# Which subscriptions obtain a registration

Nacos keeps instances under a service name and a group; the version is compared when an
instance is read.  `delivered_iff`: the three separate identities, but an absent group
is the default group of Nacos.
-/

namespace Fusen.Nacos

open Lib Contract

/-- A subscription obtains the instance of a registration; Nacos delivers the instances
under the same service name and group. -/
def DeliveredTo (crate : UrlCrate) (r : ServiceRegistration) (selector : ServiceSelector)
    (convention : NacosConvention) : Prop :=
  serviceName r.selector = serviceName selector ∧ serviceGroup r.selector = serviceGroup selector ∧
    ∃ instance_, buildInstance r = some instance_ ∧
      toServiceInstances crate [instance_] selector convention ≠ []

/-- The segments of the base path stand for text. -/
def DecodablePath (crate : UrlCrate) (path : Text) : Prop :=
  ∀ segment ∈ parts '/' path, (crate.codec.decode segment).isSome = true

/-- The identity that Nacos keeps apart. -/
def SameNacosIdentity (s t : ServiceSelector) : Prop :=
  s.serviceId = t.serviceId ∧ s.group.getD DEFAULT_GROUP = t.group.getD DEFAULT_GROUP ∧
    s.version = t.version

section

variable {crate : UrlCrate} {r : ServiceRegistration}

theorem matchesSelector_written {instance_ : NacosServiceInstance}
    (h : Written instance_.metadata r) (selector : ServiceSelector) (convention : NacosConvention) :
    matchesSelector instance_ selector convention = true ↔
      r.selector.version = selector.version ∧ r.selector.serviceId = selector.serviceId := by
  unfold matchesSelector
  rw [h.version, h.serviceId]
  by_cases hversion : r.selector.version = selector.version
  · simp [hversion]
  · simp [hversion]

theorem toServiceInstances_singleton {instance_ : NacosServiceInstance}
    (hhealthy : (instance_.healthy && instance_.enabled && instance_.weight.isPositive) = true)
    (selector : ServiceSelector) (convention : NacosConvention) :
    toServiceInstances crate [instance_] selector convention ≠ [] ↔
      matchesSelector instance_ selector convention = true ∧
        (toServiceInstance crate instance_ convention).isSome = true := by
  have hkept : [instance_].filter (fun i => i.healthy && i.enabled && i.weight.isPositive) =
      [instance_] := by
    simpa using hhealthy
  unfold toServiceInstances
  rw [hkept]
  have hselected : [instance_].filter (fun i => matchesSelector i selector convention) =
      if matchesSelector instance_ selector convention then [instance_] else [] := by
    rw [List.filter_cons, List.filter_nil]
  rw [hselected]
  by_cases hmatch : matchesSelector instance_ selector convention = true
  · rw [if_pos hmatch, and_iff_right hmatch]
    cases hread : toServiceInstance crate instance_ convention with
    | none => simp [hread]
    | some i => simp [hread]
  · rw [if_neg hmatch]
    simp [hmatch]

theorem deliveredTo_of_documented (hcrate : crate.Documented)
    (hurl : ∃ text, crate.parse text = some r.endpoint.url)
    (hpath : DecodablePath crate r.endpoint.url.path) (selector : ServiceSelector)
    (convention : NacosConvention) :
    DeliveredTo crate r selector convention ↔ SameNacosIdentity r.selector selector := by
  obtain ⟨text, hurl⟩ := hurl
  obtain ⟨host, port, hhost, hport, hne, hbuild⟩ := buildInstance_eq r
  have hread := toServiceInstance_built hcrate hurl hhost hport hne convention
  have hsome : (toServiceInstance crate (instanceAt r host port) convention).isSome = true := by
    rw [hread, Option.isSome_map]
    exact (pushSegments_isSome_iff _ _).mpr hpath
  have hhealthy : ((instanceAt r host port).healthy && (instanceAt r host port).enabled &&
      (instanceAt r host port).weight.isPositive) = true := by
    have hweight := r.weight.valid
    rw [Bool.and_eq_true] at hweight
    simp [instanceAt, hweight.2]
  have hwritten : Written (instanceAt r host port).metadata r := by
    rw [instanceAt_metadata]
    exact buildMetadata_written r
  have hfound : (∃ instance_, buildInstance r = some instance_ ∧
      toServiceInstances crate [instance_] selector convention ≠ []) ↔
      r.selector.version = selector.version ∧ r.selector.serviceId = selector.serviceId := by
    rw [← matchesSelector_written hwritten selector convention, hbuild]
    constructor
    · rintro ⟨_, ⟨⟩, h⟩
      exact ((toServiceInstances_singleton hhealthy selector convention).mp h).1
    · intro h
      exact ⟨_, rfl, (toServiceInstances_singleton hhealthy selector convention).mpr ⟨h, hsome⟩⟩
  unfold DeliveredTo SameNacosIdentity
  rw [hfound]
  exact ⟨fun h => ⟨h.1, h.2.1, h.2.2.1⟩, fun h => ⟨h.1, h.2.1, h.2.2, h.1⟩⟩

/-- **A registration is delivered to the subscriptions of its identity**, where an absent
group is the default group. -/
theorem delivered_iff (crate : UrlCrate) (r : ServiceRegistration) (selector : ServiceSelector)
    (convention : NacosConvention) (hcrate : crate.Documented)
    (hurl : ∃ text, crate.parse text = some r.endpoint.url)
    (hpath : DecodablePath crate r.endpoint.url.path) :
    DeliveredTo crate r selector convention ↔ SameNacosIdentity r.selector selector :=
  deliveredTo_of_documented hcrate hurl hpath selector convention

end

theorem usersPath_decodable : DecodablePath (usersCrate "/rpc".toList) "/rpc".toList := by
  intro segment hsegment
  rw [List.mem_singleton.mp hsegment]
  decide +kernel

theorem users_delivered : DeliveredTo (usersCrate "/rpc".toList)
    (usersRegistration none nofun "/rpc".toList) (usersSelector none nofun) .canonical :=
  (delivered_iff _ _ _ .canonical (usersCrate_documented (by decide)) (users_parsed none nofun _)
    usersPath_decodable).mpr ⟨rfl, rfl, rfl⟩

/-- The default group and an absent group are two identities. -/
theorem users_defaultGroup :
    DeliveredTo (usersCrate "/rpc".toList) (usersRegistration none nofun "/rpc".toList)
      (usersSelector (some DEFAULT_GROUP) (by decide)) .canonical ∧
    (usersSelector none nofun).identity ≠ (usersSelector (some DEFAULT_GROUP) (by decide)).identity :=
  ⟨(deliveredTo_of_documented (usersCrate_documented (by decide)) (users_parsed none nofun _)
    usersPath_decodable _ .canonical).mpr ⟨rfl, rfl, rfl⟩, by decide⟩

end Fusen.Nacos
