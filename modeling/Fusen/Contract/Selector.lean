import Fusen.Contract.Service

/-!
# Service identities (`fusen-contract/service.rs`)

A `ServiceSelector` names a service by its id and an optional group and version.
Metadata is kept as a list of entries with distinct keys.
-/

namespace Fusen.Contract

open Lib

/-! ## Metadata -/

abbrev Metadata := List (Text × Text)

def trim (s : Text) : Text := (s.dropWhile isWhitespace).rdropWhile isWhitespace

def isAsciiControl (c : Char) : Bool := c.toNat < 32 || c.toNat = 127

def isMetadataKey (key : Text) : Bool :=
  key ≠ [] && trim key = key && !key.any isAsciiControl

/-- The prefix of the keys that adapters write themselves. -/
def reservedMetadataPrefix : Text := "fusen.".toList

def validateMetadataKeys (metadata : Metadata) : Except ContractError Unit :=
  match metadata.find? fun e => !isMetadataKey e.1 with
  | some e => .error (.invalidMetadataKey e.1)
  | none => .ok ()

def validateUserMetadata (metadata : Metadata) : Except ContractError Unit := do
  validateMetadataKeys metadata
  match metadata.find? fun e => reservedMetadataPrefix.isPrefixOf e.1 with
  | some e => .error (.invalidMetadataKey e.1)
  | none => .ok ()

theorem validateMetadataKeys_ok {metadata : Metadata} (h : validateMetadataKeys metadata = .ok ()) :
    ∀ e ∈ metadata, isMetadataKey e.1 = true := by
  intro e he
  unfold validateMetadataKeys at h
  split at h
  · cases h
  · rename_i hfind
    simpa using List.find?_eq_none.mp hfind e he

/-- Keys of users are no reserved ones. -/
theorem validateUserMetadata_ok {metadata : Metadata} (h : validateUserMetadata metadata = .ok ()) :
    ∀ e ∈ metadata, reservedMetadataPrefix.isPrefixOf e.1 = false := by
  intro e he
  unfold validateUserMetadata at h
  cases hkeys : validateMetadataKeys metadata with
  | error e' =>
    rw [hkeys] at h
    cases h
  | ok _ =>
    rw [hkeys] at h
    have h : (match metadata.find? fun e => reservedMetadataPrefix.isPrefixOf e.1 with
      | some e => .error (.invalidMetadataKey e.1)
      | none => .ok () : Except ContractError Unit) = .ok () := h
    split at h
    · cases h
    · rename_i hfind
      exact Bool.eq_false_iff.mpr (List.find?_eq_none.mp hfind e he)

/-! ## Selectors -/

def serviceIdentity (serviceId : Text) (group version : Option Text) : Text :=
  serviceId ++ (match group with | some g => '/' :: g | none => []) ++
    (match version with | some v => '@' :: v | none => [])

theorem validateUserMetadata_nil : validateUserMetadata [] = .ok () := rfl

theorem isIdentityComponent_of_mem_none :
    ∀ component ∈ (none : Option Text), isIdentityComponent component = true :=
  nofun

structure ServiceSelector where
  serviceId : Text
  group : Option Text
  version : Option Text
  metadata : Metadata
  serviceId_valid : isIdentityComponent serviceId = true
  group_valid : ∀ g ∈ group, isIdentityComponent g = true
  version_valid : ∀ v ∈ version, isIdentityComponent v = true
  metadata_valid : validateUserMetadata metadata = .ok ()
  metadata_distinct : (metadata.map Prod.fst).Nodup

namespace ServiceSelector

def identity (s : ServiceSelector) : Text := serviceIdentity s.serviceId s.group s.version

/-- The field of the first component that is no identifier. -/
def invalidComponent (serviceId : Text) (group : Option Text) : Text :=
  if isIdentityComponent serviceId = false then "service id".toList
  else if group.any (fun g => !isIdentityComponent g) then "service group".toList
  else "service version".toList

def new (serviceId : Text) (group version : Option Text) : Except ContractError ServiceSelector :=
  if h : isIdentityComponent serviceId = true ∧ (∀ g ∈ group, isIdentityComponent g = true) ∧
      ∀ v ∈ version, isIdentityComponent v = true then
    .ok ⟨serviceId, group, version, [], h.1, h.2.1, h.2.2, rfl, List.nodup_nil⟩
  else .error (.invalidIdentifier (invalidComponent serviceId group))

def withMetadata (s : ServiceSelector) (metadata : Metadata)
    (hdistinct : (metadata.map Prod.fst).Nodup) : Except ContractError ServiceSelector :=
  match h : validateUserMetadata metadata with
  | .error e => .error e
  | .ok () => .ok { s with metadata, metadata_valid := h, metadata_distinct := hdistinct }

end ServiceSelector

end Fusen.Contract
