import Fusen.Contract.Descriptor
import Mathlib.Data.Char
import Mathlib.Data.Finset.Sort
import Mathlib.Data.List.Lex
import Mathlib.Data.Rat.Defs

/-!
# Registrations and instances (`fusen-contract/http.rs`, `service.rs`)

A registration is what a provider hands to a registry, an instance what a consumer
obtains from it.  A `Url` is a parsed URL; its host is the text of `host_str`, where an
IPv6 address stands in brackets, and its port is absent if it is the default one.
-/

namespace Fusen.Contract

open Lib

/-! ## Capabilities -/

def isBindingChar (c : Char) : Bool := c.isLower || c.isDigit

def validBindingId (value : Text) : Bool :=
  value ≠ [] && (utf8 value).length ≤ 64 &&
    (value.splitOnP fun c => c == '-' || c == '.').all fun segment =>
      segment ≠ [] && segment.all isBindingChar

structure HttpBindingId where
  text : Text
  valid : validBindingId text = true
deriving DecidableEq

def HttpBindingId.new (value : Text) : Except ContractError HttpBindingId :=
  if h : validBindingId value = true then .ok ⟨value, h⟩ else .error .invalidHttpBinding

structure HttpVersionSet where
  http11 : Bool
  http2 : Bool
  nonempty : (http11 || http2) = true
deriving DecidableEq

namespace HttpVersionSet

def HTTP_1_1 : HttpVersionSet := ⟨true, false, rfl⟩
def HTTP_2 : HttpVersionSet := ⟨false, true, rfl⟩
def ALL : HttpVersionSet := ⟨true, true, rfl⟩

end HttpVersionSet

/-- The elements of a `BTreeSet` in their order. -/
def orderedSet (values : List Text) : List Text := values.toFinset.sort

theorem mem_orderedSet {values : List Text} {v : Text} : v ∈ orderedSet values ↔ v ∈ values := by
  unfold orderedSet
  rw [Finset.mem_sort, List.mem_toFinset]

theorem orderedSet_pairwise (values : List Text) : (orderedSet values).Pairwise (· < ·) :=
  (values.toFinset.sortedLT_sort).pairwise

theorem orderedSet_of_pairwise {values : List Text} (h : values.Pairwise (· < ·)) :
    orderedSet values = values :=
  (List.toFinset_sort (· ≤ ·) (h.imp ne_of_lt)).mpr (h.imp le_of_lt)

structure EndpointCapabilities where
  httpVersions : HttpVersionSet
  bindings : List Text
  invocationControls : Bool
  bindings_valid : ∀ b ∈ bindings, validBindingId b = true
  bindings_ordered : bindings.Pairwise (· < ·)
  bindings_ne_nil : bindings ≠ []
deriving DecidableEq

namespace EndpointCapabilities

def new (httpVersions : HttpVersionSet) (bindings : List HttpBindingId)
    (invocationControls : Bool) : Except ContractError EndpointCapabilities :=
  let ordered := orderedSet (bindings.map HttpBindingId.text)
  if h : ordered = [] then .error .emptyHttpBindings
  else .ok {
    httpVersions, bindings := ordered, invocationControls
    bindings_valid := by
      intro b hb
      obtain ⟨binding, -, rfl⟩ := List.mem_map.mp ((mem_orderedSet).mp hb)
      exact binding.valid
    bindings_ordered := orderedSet_pairwise _
    bindings_ne_nil := h }

/-- What an endpoint without metadata of ours is taken to support. -/
def default : EndpointCapabilities where
  httpVersions := .HTTP_1_1
  bindings := ["http-json-v1".toList]
  invocationControls := false
  bindings_valid := by decide
  bindings_ordered := List.pairwise_singleton _ _
  bindings_ne_nil := List.cons_ne_nil _ _

end EndpointCapabilities

/-! ## Endpoints -/

structure Url where
  scheme : Text
  cannotBeABase : Bool
  username : Text
  password : Option Text
  host : Option Text
  port : Option UInt16
  path : Text
  query : Option Text
  fragment : Option Text
deriving DecidableEq

namespace Url

/-- The default port of the schemes that the `url` crate knows. -/
def knownDefaultPort (scheme : Text) : Option UInt16 :=
  if scheme = "http".toList ∨ scheme = "ws".toList then some 80
  else if scheme = "https".toList ∨ scheme = "wss".toList then some 443
  else if scheme = "ftp".toList then some 21
  else none

def portOrKnownDefault (url : Url) : Option UInt16 := url.port.or (knownDefaultPort url.scheme)

/-- What `ServiceEndpoint::new` requires. -/
def isEndpoint (url : Url) : Bool :=
  (url.scheme = "http".toList || url.scheme = "https".toList) && !url.cannotBeABase &&
    url.host.isSome && url.portOrKnownDefault.any (· ≠ 0) && url.username = [] &&
    url.password = none && url.query = none && url.fragment = none

end Url

structure ServiceEndpoint where
  url : Url
  valid : url.isEndpoint = true
deriving DecidableEq

def ServiceEndpoint.new (url : Url) : Except ContractError ServiceEndpoint :=
  if h : url.isEndpoint = true then .ok ⟨url, h⟩
  else .error (.invalidEndpoint
    "expected an absolute HTTP or HTTPS URL without userinfo, a zero port, query, or fragment".toList)

/-! ## Weights -/

/-- An `f64`; a finite one is a rational number. -/
inductive F64
  | finite (value : Rat)
  | infinite (positive : Bool)
  | nan
deriving DecidableEq

namespace F64

def isFinite : F64 → Bool
  | finite _ => true
  | _ => false

/-- The comparison `0.0 < x`. -/
def isPositive : F64 → Bool
  | finite value => 0 < value
  | infinite positive => positive
  | nan => false

end F64

structure ServiceWeight where
  value : F64
  valid : (value.isFinite && value.isPositive) = true
deriving DecidableEq

def ServiceWeight.new (value : F64) : Except ContractError ServiceWeight :=
  if h : (value.isFinite && value.isPositive) = true then .ok ⟨value, h⟩ else .error .invalidWeight

/-! ## Registrations and instances -/

def isInstanceIdChar (c : Char) : Bool := isIdentityChar c || c == ':'

def isInstanceId (value : Text) : Bool :=
  value ≠ [] && value.length ≤ maxIdentityBytes && value.all isInstanceIdChar

structure InstanceId where
  text : Text
  valid : isInstanceId text = true
deriving DecidableEq

def InstanceId.new (value : Text) : Except ContractError InstanceId :=
  if h : isInstanceId value = true then .ok ⟨value, h⟩ else .error .invalidInstanceId

structure ServiceRegistration where
  instanceId : InstanceId
  descriptor : ServiceDescriptor
  endpoint : ServiceEndpoint
  capabilities : EndpointCapabilities
  weight : ServiceWeight
  metadata : Metadata
  metadata_valid : validateUserMetadata metadata = .ok ()
  metadata_distinct : (metadata.map Prod.fst).Nodup

def ServiceRegistration.selector (r : ServiceRegistration) : ServiceSelector := r.descriptor.selector

structure ServiceInstance where
  instanceId : InstanceId
  endpoint : ServiceEndpoint
  capabilities : EndpointCapabilities
  weight : ServiceWeight
  metadata : Metadata
  metadata_valid : validateUserMetadata metadata = .ok ()
  metadata_distinct : (metadata.map Prod.fst).Nodup

/-- `new` and `with_metadata` in one. -/
def ServiceInstance.withMetadata (instanceId : InstanceId) (endpoint : ServiceEndpoint)
    (capabilities : EndpointCapabilities) (weight : ServiceWeight) (metadata : Metadata)
    (hdistinct : (metadata.map Prod.fst).Nodup) : Except ContractError ServiceInstance :=
  match h : validateUserMetadata metadata with
  | .error e => .error e
  | .ok () => .ok ⟨instanceId, endpoint, capabilities, weight, metadata, h, hdistinct⟩

theorem ServiceInstance.withMetadata_ok {instanceId : InstanceId} {endpoint : ServiceEndpoint}
    {capabilities : EndpointCapabilities} {weight : ServiceWeight} {metadata : Metadata}
    {hdistinct : (metadata.map Prod.fst).Nodup} (h : validateUserMetadata metadata = .ok ()) :
    ServiceInstance.withMetadata instanceId endpoint capabilities weight metadata hdistinct =
      .ok ⟨instanceId, endpoint, capabilities, weight, metadata, h, hdistinct⟩ := by
  unfold ServiceInstance.withMetadata
  split
  · rename_i hinvalid
    rw [h] at hinvalid
    cases hinvalid
  · rfl

/-- Metadata whose keys are keys of users is accepted. -/
theorem validateUserMetadata_ok_iff (metadata : Metadata) :
    validateUserMetadata metadata = .ok () ↔ ∀ e ∈ metadata,
      isMetadataKey e.1 = true ∧ reservedMetadataPrefix.isPrefixOf e.1 = false := by
  constructor
  · intro h e he
    refine ⟨?_, validateUserMetadata_ok h e he⟩
    unfold validateUserMetadata at h
    cases hkeys : validateMetadataKeys metadata with
    | error e' =>
      rw [hkeys] at h
      cases h
    | ok u => exact validateMetadataKeys_ok hkeys e he
  · intro h
    have hkeys : metadata.find? (fun e => !isMetadataKey e.1) = none :=
      List.find?_eq_none.mpr fun e he => by simp [(h e he).1]
    have hreserved : metadata.find? (fun e => reservedMetadataPrefix.isPrefixOf e.1) = none :=
      List.find?_eq_none.mpr fun e he => by simp [(h e he).2]
    unfold validateUserMetadata validateMetadataKeys
    rw [hkeys, hreserved]
    rfl

end Fusen.Contract
