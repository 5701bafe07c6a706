import Fusen.Contract.Registration
import Fusen.Lib.Percent
import Mathlib.Algebra.Group.Int.Defs

/-!
# The Nacos adapter (`fusen-nacos/register.rs`)

`buildInstance` writes a registration as a Nacos instance, `toServiceInstance` reads one.
`UrlCrate` is what the adapter uses of the `url` crate and of the parser of IPv6
addresses.  A hash map is a list of entries with distinct keys.
-/

namespace Fusen.Nacos

open Lib Contract

def META_SCHEME : Text := "fusen.scheme".toList
def META_BASE_PATH : Text := "fusen.base_path".toList
def META_SERVICE_ID : Text := "fusen.service_id".toList
def META_VERSION : Text := "fusen.version".toList
def META_GROUP : Text := "fusen.group".toList
def META_INSTANCE_ID : Text := "fusen.instance_id".toList
def META_HTTP_BINDINGS : Text := "fusen.http.bindings".toList
def META_HTTP_VERSIONS : Text := "fusen.http.versions".toList
def META_INVOCATION_CONTROLS : Text := "fusen.invocation-controls".toList
def INVOCATION_CONTROLS_V1 : Text := "v1".toList
def DEFAULT_GROUP : Text := "DEFAULT_GROUP".toList

inductive NacosConvention
  | canonical | springCloud
deriving DecidableEq, Repr

/-- An instance as the registry carries it. -/
structure NacosServiceInstance where
  instanceId : Option Text
  ip : Text
  port : Int
  weight : F64
  healthy : Bool
  enabled : Bool
  metadata : Metadata
  distinct : (metadata.map Prod.fst).Nodup

structure UrlCrate where
  parse : Text → Option Url
  /-- What `push` appends for a segment. -/
  encodeSegment : Text → Text
  isIpv6Addr : Text → Bool
  codec : PercentCodec

/-- `PathSegmentsMut::push`. -/
def UrlCrate.push (crate : UrlCrate) (path segment : Text) : Text :=
  if segment = ['.'] ∨ segment = ['.', '.'] then path
  else (if path = ['/'] then path else path ++ ['/']) ++ crate.encodeSegment segment

/-! ## Registration -/

def serviceName (selector : ServiceSelector) : Text := selector.serviceId

def serviceGroup (selector : ServiceSelector) : Text := selector.group.getD DEFAULT_GROUP

def encodeHttpVersions (versions : HttpVersionSet) : Text :=
  if versions = .HTTP_1_1 then "1.1".toList
  else if versions = .HTTP_2 then "2".toList
  else "1.1,2".toList

/-- What is written under the reserved keys. -/
def reservedValues (r : ServiceRegistration) : List (Text × Option Text) :=
  let url := r.endpoint.url
  [(META_SCHEME, some url.scheme),
    (META_SERVICE_ID, some r.selector.serviceId),
    (META_INSTANCE_ID, some r.instanceId.text),
    (META_HTTP_BINDINGS, some ([','].intercalate r.capabilities.bindings)),
    (META_HTTP_VERSIONS, some (encodeHttpVersions r.capabilities.httpVersions)),
    (META_INVOCATION_CONTROLS,
      if r.capabilities.invocationControls then some INVOCATION_CONTROLS_V1 else none),
    (META_BASE_PATH, if url.path ≠ ['/'] ∧ url.path ≠ [] then some url.path else none),
    (META_VERSION, r.selector.version),
    (META_GROUP, r.selector.group)]

def buildMetadata (r : ServiceRegistration) : Metadata :=
  Assoc.extend (Assoc.extend (Assoc.extend [] r.selector.metadata) r.metadata)
    (Assoc.present (reservedValues r))

/-- A host without the brackets of an IPv6 address. -/
def stripBrackets : Text → Text
  | '[' :: rest => if rest.getLast? = some ']' then rest.dropLast else '[' :: rest
  | host => host

theorem buildMetadata_distinct (r : ServiceRegistration) :
    ((buildMetadata r).map Prod.fst).Nodup :=
  Assoc.nodup_keys_extend (Assoc.nodup_keys_extend (Assoc.nodup_keys_extend List.nodup_nil))

def instanceAt (r : ServiceRegistration) (host : Text) (port : UInt16) : NacosServiceInstance where
  instanceId := some r.instanceId.text
  ip := stripBrackets host
  port := port.toNat
  weight := r.weight.value
  healthy := true
  enabled := true
  metadata := buildMetadata r
  distinct := buildMetadata_distinct r

section

variable (r : ServiceRegistration) (host : Text) (port : UInt16)

@[simp] theorem instanceAt_ip : (instanceAt r host port).ip = stripBrackets host := by
  simp only [instanceAt]

@[simp] theorem instanceAt_port : (instanceAt r host port).port = port.toNat := by
  simp only [instanceAt]

@[simp] theorem instanceAt_weight : (instanceAt r host port).weight = r.weight.value := by
  simp only [instanceAt]

@[simp] theorem instanceAt_metadata : (instanceAt r host port).metadata = buildMetadata r := by
  simp only [instanceAt]

end

/-- `none` is an error of the registry. -/
def buildInstance (r : ServiceRegistration) : Option NacosServiceInstance :=
  r.endpoint.url.host.bind fun host =>
    r.endpoint.url.portOrKnownDefault.map fun port => instanceAt r host port

/-! ## Discovery -/

def matchesSelector (instance_ : NacosServiceInstance) (selector : ServiceSelector)
    (convention : NacosConvention) : Bool :=
  if Assoc.get instance_.metadata META_VERSION ≠ selector.version then false
  else
    match Assoc.get instance_.metadata META_SERVICE_ID with
    | some serviceId => serviceId = selector.serviceId
    | none => convention = .springCloud

/-- `seen` are the bindings so far. -/
def decodeBindingsFrom (seen : List HttpBindingId) : List Text → Option (List HttpBindingId)
  | [] => some seen
  | value :: rest =>
    match HttpBindingId.new value with
    | .error _ => none
    | .ok binding => if binding ∈ seen then none else decodeBindingsFrom (seen ++ [binding]) rest

def decodeBindings (value : Text) : Option (List HttpBindingId) :=
  (decodeBindingsFrom [] (value.splitOn ',')).filter (· ≠ [])

def decodeHttpVersionsFrom (http1 http2 : Bool) : List Text → Option (Bool × Bool)
  | [] => some (http1, http2)
  | version :: rest =>
    if version = "1.1".toList then if http1 then none else decodeHttpVersionsFrom true http2 rest
    else if version = "2".toList then if http2 then none else decodeHttpVersionsFrom http1 true rest
    else none

def decodeHttpVersions (value : Text) : Option HttpVersionSet :=
  match decodeHttpVersionsFrom false false (value.splitOn ',') with
  | some (true, true) => some .ALL
  | some (true, false) => some .HTTP_1_1
  | some (false, true) => some .HTTP_2
  | _ => none

def decodeCapabilities (metadata : Metadata) (convention : NacosConvention) :
    Option EndpointCapabilities :=
  let bindings := Assoc.get metadata META_HTTP_BINDINGS
  let versions := Assoc.get metadata META_HTTP_VERSIONS
  let controls := Assoc.get metadata META_INVOCATION_CONTROLS
  if bindings = none ∧ versions = none ∧ controls = none then
    if convention = .springCloud then some .default else none
  else do
    let bindings ← decodeBindings (← bindings)
    let versions ← decodeHttpVersions (← versions)
    let invocationControls ← match controls with
      | none => some false
      | some controls => if controls = INVOCATION_CONTROLS_V1 then some true else none
    (EndpointCapabilities.new versions bindings invocationControls).toOption

section

variable (crate : UrlCrate)

/-- The loop over the segments of the base path. -/
def pushSegments (path : Text) : List Text → Option Text
  | [] => some path
  | segment :: rest =>
    match crate.codec.decode segment with
    | none => none
    | some decoded => pushSegments (crate.push path decoded) rest

def withBasePath (url : Url) (path : Text) : Option Url :=
  if url.cannotBeABase then none
  else (pushSegments crate ['/'] (parts '/' path)).map fun path => { url with path }

/-- The URL of an instance. -/
def endpointUrl (instance_ : NacosServiceInstance) (port : Nat) : Option Url := do
  let scheme := (Assoc.get instance_.metadata META_SCHEME).getD "http".toList
  if scheme ≠ "http".toList ∧ scheme ≠ "https".toList then none
  let host := if crate.isIpv6Addr instance_.ip then '[' :: instance_.ip ++ [']'] else instance_.ip
  let url ← crate.parse (scheme ++ "://".toList ++ host ++ ':' :: decimal port)
  match Assoc.get instance_.metadata META_BASE_PATH with
  | none => some url
  | some path => withBasePath crate url path

def instanceIdOf (instance_ : NacosServiceInstance) (port : Nat) : Option InstanceId :=
  ((Assoc.get instance_.metadata META_INSTANCE_ID).or instance_.instanceId).bind
      (fun value => (InstanceId.new value).toOption) |>.or
    (InstanceId.new ("nacos:".toList ++ instance_.ip ++ ':' :: decimal port)).toOption

def isUserEntry (e : Text × Text) : Bool := !reservedMetadataPrefix.isPrefixOf e.1

def toServiceInstance (instance_ : NacosServiceInstance) (convention : NacosConvention) :
    Option ServiceInstance := do
  if instance_.port ≤ 0 ∨ 2 ^ 16 ≤ instance_.port then none
  let port := instance_.port.toNat
  let url ← endpointUrl crate instance_ port
  let instanceId ← instanceIdOf instance_ port
  let endpoint ← (ServiceEndpoint.new url).toOption
  let capabilities ← decodeCapabilities instance_.metadata convention
  let weight ← (ServiceWeight.new instance_.weight).toOption
  (ServiceInstance.withMetadata instanceId endpoint capabilities weight
    (instance_.metadata.filter isUserEntry)
    (instance_.distinct.sublist (List.filter_sublist.map _))).toOption

def toServiceInstances (instances : List NacosServiceInstance) (selector : ServiceSelector)
    (convention : NacosConvention) : List ServiceInstance :=
  ((instances.filter fun i => i.healthy && i.enabled && i.weight.isPositive).filter
    fun i => matchesSelector i selector convention).filterMap fun i =>
      toServiceInstance crate i convention

end

end Fusen.Nacos
