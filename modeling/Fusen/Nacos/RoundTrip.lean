import Fusen.Lib.Result
import Fusen.Nacos.BasePath

/-!
# What comes back from Nacos

`toServiceInstance_built` says what the instance of a registration is read as.  It is the
registration but for the base path, which is decoded and encoded again segment by segment:
`endpoint_comes_back_iff` says which endpoints come back unchanged.
-/

namespace Fusen.Nacos

open Lib Contract

/-! ## Metadata -/

def reservedKeys : List Text :=
  [META_SCHEME, META_SERVICE_ID, META_INSTANCE_ID, META_HTTP_BINDINGS, META_HTTP_VERSIONS,
    META_INVOCATION_CONTROLS, META_BASE_PATH, META_VERSION, META_GROUP]

theorem isPrefixOf_reservedKeys :
    ∀ key ∈ reservedKeys, reservedMetadataPrefix.isPrefixOf key = true := by decide

section

variable (r : ServiceRegistration)

theorem reservedValues_distinct : ((reservedValues r).map Prod.fst).Nodup := by
  show reservedKeys.Nodup
  decide +kernel

theorem present_distinct : ((Assoc.present (reservedValues r)).map Prod.fst).Nodup :=
  (Assoc.keys_present_sublist _).nodup (reservedValues_distinct r)

theorem get_buildMetadata (key : Text) : Assoc.get (buildMetadata r) key =
    (Assoc.get (reservedValues r) key).join.or
      ((Assoc.get r.metadata key).or (Assoc.get r.selector.metadata key)) := by
  unfold buildMetadata
  rw [Assoc.get_extend (present_distinct r), Assoc.get_extend r.metadata_distinct,
    Assoc.get_extend r.selector.metadata_distinct, Assoc.get_nil, Option.or_none,
    Assoc.get_present (reservedValues_distinct r)]

theorem get_user_of_reserved {metadata : Metadata} (h : validateUserMetadata metadata = .ok ())
    {key : Text} (hkey : reservedMetadataPrefix.isPrefixOf key = true) :
    Assoc.get metadata key = none := by
  rw [Assoc.get_eq_none_iff]
  intro hmem
  obtain ⟨e, he, rfl⟩ := List.mem_map.mp hmem
  rw [validateUserMetadata_ok h e he] at hkey
  cases hkey

/-- Users cannot write the keys of the adapter. -/
theorem get_reserved {key : Text} (hkey : key ∈ reservedKeys) :
    Assoc.get (buildMetadata r) key = (Assoc.get (reservedValues r) key).join := by
  have hprefix := isPrefixOf_reservedKeys key hkey
  rw [get_buildMetadata, get_user_of_reserved r.metadata_valid hprefix,
    get_user_of_reserved r.selector.metadata_valid hprefix, Option.or_none, Option.or_none]

/-- The metadata of an instance, key by key. -/
structure Written (metadata : Metadata) (r : ServiceRegistration) : Prop where
  scheme : Assoc.get metadata META_SCHEME = some r.endpoint.url.scheme
  serviceId : Assoc.get metadata META_SERVICE_ID = some r.selector.serviceId
  instanceId : Assoc.get metadata META_INSTANCE_ID = some r.instanceId.text
  bindings : Assoc.get metadata META_HTTP_BINDINGS = some ([','].intercalate r.capabilities.bindings)
  versions : Assoc.get metadata META_HTTP_VERSIONS =
    some (encodeHttpVersions r.capabilities.httpVersions)
  controls : Assoc.get metadata META_INVOCATION_CONTROLS =
    if r.capabilities.invocationControls then some INVOCATION_CONTROLS_V1 else none
  basePath : Assoc.get metadata META_BASE_PATH =
    if r.endpoint.url.path ≠ ['/'] ∧ r.endpoint.url.path ≠ [] then some r.endpoint.url.path else none
  version : Assoc.get metadata META_VERSION = r.selector.version

theorem buildMetadata_written : Written (buildMetadata r) r := by
  constructor
  all_goals
    rw [get_reserved r (by decide)]
    rfl

/-- The entries of users come back as they were, those of the registration over those of
the selector. -/
theorem get_userEntries (key : Text) :
    Assoc.get ((buildMetadata r).filter isUserEntry) key =
      (Assoc.get r.metadata key).or (Assoc.get r.selector.metadata key) := by
  have hfilter := Assoc.get_filter (l := buildMetadata r)
    (fun key => !reservedMetadataPrefix.isPrefixOf key) key
  refine hfilter.trans ?_
  cases hprefix : reservedMetadataPrefix.isPrefixOf key with
  | true =>
    rw [get_user_of_reserved r.metadata_valid hprefix,
      get_user_of_reserved r.selector.metadata_valid hprefix]
    rfl
  | false =>
    have hnone : Assoc.get (reservedValues r) key = none := by
      rw [Assoc.get_eq_none_iff]
      intro hmem
      rw [isPrefixOf_reservedKeys key hmem] at hprefix
      cases hprefix
    rw [get_buildMetadata, hnone]
    rfl

theorem userEntries_valid : validateUserMetadata ((buildMetadata r).filter isUserEntry) = .ok () := by
  rw [validateUserMetadata_ok_iff]
  intro e he
  obtain ⟨hmem, huser⟩ := List.mem_filter.mp he
  have hreserved : reservedMetadataPrefix.isPrefixOf e.1 = false := by
    simpa [isUserEntry] using huser
  refine ⟨?_, hreserved⟩
  have hkeys : ∀ metadata : Metadata, validateUserMetadata metadata = .ok () →
      e.1 ∈ metadata.map Prod.fst → isMetadataKey e.1 = true := by
    intro metadata hvalid hkey
    obtain ⟨e', he', heq⟩ := List.mem_map.mp hkey
    rw [← heq]
    exact ((validateUserMetadata_ok_iff metadata).mp hvalid e' he').1
  have hin := Assoc.get_of_mem ((buildMetadata_distinct r).sublist (List.filter_sublist.map _)) he
  rw [get_userEntries] at hin
  cases hreg : Assoc.get r.metadata e.1 with
  | some v =>
    exact hkeys r.metadata r.metadata_valid
      (List.mem_map.mpr ⟨(e.1, v), Assoc.mem_of_get hreg, rfl⟩)
  | none =>
    rw [hreg, Option.none_or] at hin
    exact hkeys _ r.selector.metadata_valid
      (List.mem_map.mpr ⟨e, Assoc.mem_of_get hin, rfl⟩)

end

/-! ## Capabilities -/

theorem mem_splitOnP {p : Char → Bool} {c : Char} {s : Text} (hc : c ∈ s) (hp : p c = false) :
    ∃ segment ∈ s.splitOnP p, c ∈ segment := by
  induction s with
  | nil => exact absurd hc List.not_mem_nil
  | cons x s ih =>
    rw [List.splitOnP_cons_eq_if_modifyHead]
    rcases List.mem_cons.mp hc with rfl | hc
    · rw [if_neg (by simp [hp])]
      cases hs : s.splitOnP p with
      | nil => exact absurd hs (List.splitOnP_ne_nil p s)
      | cons segment rest => exact ⟨c :: segment, List.mem_cons_self .., List.mem_cons_self ..⟩
    · obtain ⟨segment, hsegment, hin⟩ := ih hc
      split
      · exact ⟨segment, List.mem_cons_of_mem _ hsegment, hin⟩
      · cases hs : s.splitOnP p with
        | nil => exact absurd hs (List.splitOnP_ne_nil p s)
        | cons first rest =>
          rw [hs] at hsegment
          rcases List.mem_cons.mp hsegment with rfl | hrest
          · exact ⟨x :: segment, List.mem_cons_self .., List.mem_cons_of_mem _ hin⟩
          · exact ⟨segment, List.mem_cons_of_mem _ hrest, hin⟩

theorem comma_notMem_of_valid {binding : Text} (h : validBindingId binding = true) :
    ',' ∉ binding := by
  intro hc
  obtain ⟨segment, hsegment, hin⟩ := mem_splitOnP (p := fun c => c == '-' || c == '.') hc (by decide)
  simp only [validBindingId, Bool.and_eq_true, List.all_eq_true] at h
  exact absurd ((h.2 segment hsegment).2 ',' hin) (by decide)

theorem decodeBindingsFrom_valid {seen : List HttpBindingId} {values : List Text}
    (hvalid : ∀ v ∈ values, validBindingId v = true)
    (hnodup : (seen.map HttpBindingId.text ++ values).Nodup) :
    ∃ bindings, decodeBindingsFrom seen values = some bindings ∧
      bindings.map HttpBindingId.text = seen.map HttpBindingId.text ++ values := by
  induction values generalizing seen with
  | nil => exact ⟨seen, rfl, (List.append_nil _).symm⟩
  | cons v values ih =>
    rw [List.forall_mem_cons] at hvalid
    have hnew : (⟨v, hvalid.1⟩ : HttpBindingId) ∉ seen := by
      intro hmem
      have hdisjoint := List.disjoint_of_nodup_append hnodup
      exact hdisjoint (List.mem_map_of_mem hmem) (List.mem_cons_self ..)
    obtain ⟨bindings, hdecode, htexts⟩ := @ih (seen ++ [⟨v, hvalid.1⟩]) hvalid.2
      (by simpa using hnodup)
    refine ⟨bindings, ?_, by simpa using htexts⟩
    unfold decodeBindingsFrom HttpBindingId.new
    rw [dif_pos hvalid.1]
    simp only [if_neg hnew]
    exact hdecode

theorem decodeBindings_intercalate (c : EndpointCapabilities) :
    ∃ bindings, decodeBindings ([','].intercalate c.bindings) = some bindings ∧
      bindings.map HttpBindingId.text = c.bindings := by
  have hsplit : ([','].intercalate c.bindings).splitOn ',' = c.bindings :=
    List.splitOn_intercalate ',' (fun b hb => comma_notMem_of_valid (c.bindings_valid b hb))
      c.bindings_ne_nil
  obtain ⟨bindings, hdecode, htexts⟩ := @decodeBindingsFrom_valid [] c.bindings c.bindings_valid
    (c.bindings_ordered.imp ne_of_lt)
  refine ⟨bindings, ?_, htexts⟩
  unfold decodeBindings
  rw [hsplit, hdecode, Option.filter_some, if_pos]
  have hne : bindings ≠ [] := by
    rintro rfl
    exact c.bindings_ne_nil htexts.symm
  simpa using hne

theorem decodeHttpVersions_encode (versions : HttpVersionSet) :
    decodeHttpVersions (encodeHttpVersions versions) = some versions := by
  obtain ⟨http11, http2, hnonempty⟩ := versions
  cases http11 <;> cases http2 <;> first | rfl | cases hnonempty

/-- **Capabilities come back as they were.** -/
theorem decodeCapabilities_written {r : ServiceRegistration} {metadata : Metadata}
    (h : Written metadata r) (convention : NacosConvention) :
    decodeCapabilities metadata convention = some r.capabilities := by
  obtain ⟨bindings, hbindings, htexts⟩ := decodeBindings_intercalate r.capabilities
  have hordered : orderedSet (bindings.map HttpBindingId.text) = r.capabilities.bindings := by
    rw [htexts]
    exact orderedSet_of_pairwise r.capabilities.bindings_ordered
  unfold decodeCapabilities
  rw [h.bindings, h.versions, h.controls, if_neg (by simp)]
  simp only [Option.bind_eq_bind, Option.bind_some, hbindings, decodeHttpVersions_encode]
  have hnew : (EndpointCapabilities.new r.capabilities.httpVersions bindings
      r.capabilities.invocationControls).toOption = some r.capabilities := by
    unfold EndpointCapabilities.new
    rw [dif_neg (by rw [hordered]; exact r.capabilities.bindings_ne_nil)]
    simp only [hordered]
    rfl
  cases hcontrols : r.capabilities.invocationControls with
  | true =>
    rw [hcontrols] at hnew
    exact hnew
  | false =>
    rw [hcontrols] at hnew
    exact hnew

/-! ## Endpoints -/

/-- What the adapter relies on: the origin of an endpoint is parsed as this endpoint
without its path, a host in brackets is an IPv6 address and no other host is, and `push`
encodes slashes. -/
structure UrlCrate.Documented (crate : UrlCrate) : Prop where
  origin : ∀ (text : Text) (endpoint : ServiceEndpoint) (host : Text) (port : UInt16),
    crate.parse text = some endpoint.url → endpoint.url.host = some host →
    endpoint.url.portOrKnownDefault = some port →
    crate.parse (endpoint.url.scheme ++ "://".toList ++ host ++ ':' :: decimal port.toNat) =
      some { endpoint.url with path := ['/'] }
  host : ∀ (text : Text) (endpoint : ServiceEndpoint) (host : Text),
    crate.parse text = some endpoint.url → endpoint.url.host = some host →
    (∃ address, host = '[' :: address ++ [']'] ∧ crate.isIpv6Addr address = true) ∨
      host.head? ≠ some '[' ∧ crate.isIpv6Addr host = false
  slash : ∀ s, '/' ∉ crate.encodeSegment s

theorem stripBrackets_brackets (address : Text) :
    stripBrackets ('[' :: address ++ [']']) = address := by
  show (if (address ++ [']']).getLast? = some ']' then (address ++ [']']).dropLast else _) = _
  rw [if_pos (by simp), List.dropLast_concat]

theorem stripBrackets_of_head {host : Text} (h : host.head? ≠ some '[') :
    stripBrackets host = host := by
  unfold stripBrackets
  split
  · exact absurd rfl h
  · rfl

/-- The instance that is read, with this path. -/
def discovered (r : ServiceRegistration) (path : Text) : ServiceInstance where
  instanceId := r.instanceId
  endpoint := ⟨{ r.endpoint.url with path }, r.endpoint.valid⟩
  capabilities := r.capabilities
  weight := r.weight
  metadata := (buildMetadata r).filter isUserEntry
  metadata_valid := userEntries_valid r
  metadata_distinct := (buildMetadata_distinct r).sublist (List.filter_sublist.map _)

theorem endpoint_facts (endpoint : ServiceEndpoint) :
    (endpoint.url.scheme = "http".toList ∨ endpoint.url.scheme = "https".toList) ∧
      endpoint.url.cannotBeABase = false ∧ (∃ host, endpoint.url.host = some host) ∧
      ∃ port, endpoint.url.portOrKnownDefault = some port ∧ port ≠ 0 := by
  have h := endpoint.valid
  simp only [Url.isEndpoint, Bool.and_eq_true, Bool.or_eq_true, decide_eq_true_eq,
    Bool.not_eq_true', Option.isSome_iff_exists, Option.any_eq_true] at h
  exact ⟨h.1.1.1.1.1.1.1, h.1.1.1.1.1.1.2, h.1.1.1.1.1.2, h.1.1.1.1.2⟩

section

variable {crate : UrlCrate} {r : ServiceRegistration}

/-- The endpoint's URL without its path is rebuilt. -/
theorem endpointUrl_built (hcrate : crate.Documented) {text host : Text} {port : UInt16}
    (hurl : crate.parse text = some r.endpoint.url) (hhost : r.endpoint.url.host = some host)
    (hport : r.endpoint.url.portOrKnownDefault = some port) {instance_ : NacosServiceInstance}
    (hip : instance_.ip = stripBrackets host) (hwritten : Written instance_.metadata r) :
    endpointUrl crate instance_ port.toNat =
      (pushSegments crate ['/'] (parts '/' r.endpoint.url.path)).map fun path =>
        { r.endpoint.url with path } := by
  obtain ⟨hscheme, hbase, -, -⟩ := endpoint_facts r.endpoint
  have hrebuilt : (if crate.isIpv6Addr instance_.ip then '[' :: instance_.ip ++ [']']
      else instance_.ip) = host := by
    rw [hip]
    rcases hcrate.host text r.endpoint host hurl hhost with ⟨address, rfl, hv6⟩ | ⟨hhead, hv6⟩
    · rw [stripBrackets_brackets, if_pos hv6]
    · rw [stripBrackets_of_head hhead, if_neg (by simp [hv6])]
  have hnot : ¬ (r.endpoint.url.scheme ≠ "http".toList ∧ r.endpoint.url.scheme ≠ "https".toList) := by
    rintro ⟨hhttp, hhttps⟩
    exact hscheme.elim hhttp hhttps
  unfold endpointUrl
  simp only [hwritten.scheme, Option.getD_some, hrebuilt, hwritten.basePath,
    hcrate.origin text r.endpoint host port hurl hhost hport, Option.bind_eq_bind, Option.bind_some]
  rw [if_neg hnot]
  by_cases hroot : r.endpoint.url.path ≠ ['/'] ∧ r.endpoint.url.path ≠ []
  · rw [if_pos hroot]
    show withBasePath crate _ _ = _
    unfold withBasePath
    rw [if_neg (by simp [hbase])]
  · rw [if_neg hroot]
    have hparts : parts '/' r.endpoint.url.path = [] := by
      rw [not_and_or, not_not, not_not] at hroot
      rcases hroot with hroot | hroot <;> rw [hroot] <;> rfl
    rw [hparts]
    rfl

theorem instanceIdOf_built (host : Text) (port : UInt16) :
    instanceIdOf (instanceAt r host port) port.toNat = some r.instanceId := by
  have hnew : (InstanceId.new r.instanceId.text).toOption = some r.instanceId := by
    unfold InstanceId.new
    rw [dif_pos r.instanceId.valid]
    rfl
  unfold instanceIdOf
  rw [instanceAt_metadata, (buildMetadata_written r).instanceId, Option.some_or, Option.bind_some, hnew, Option.some_or]

/-- **What the instance of a registration is read as**: the registration, but for its path. -/
theorem toServiceInstance_built (hcrate : crate.Documented) {text host : Text} {port : UInt16}
    (hurl : crate.parse text = some r.endpoint.url) (hhost : r.endpoint.url.host = some host)
    (hport : r.endpoint.url.portOrKnownDefault = some port) (hne : port ≠ 0)
    (convention : NacosConvention) :
    toServiceInstance crate (instanceAt r host port) convention =
      (pushSegments crate ['/'] (parts '/' r.endpoint.url.path)).map (discovered r) := by
  have hwritten : Written (instanceAt r host port).metadata r := by
    rw [instanceAt_metadata]
    exact buildMetadata_written r
  have hendpoint := endpointUrl_built hcrate hurl hhost hport
    (instanceAt_ip r host port) hwritten
  have hrange : ¬ ((instanceAt r host port).port ≤ 0 ∨ 2 ^ 16 ≤ (instanceAt r host port).port) := by
    rw [instanceAt_port]
    have hlt := port.toNat_lt
    have hpos : port.toNat ≠ 0 := fun h => hne (UInt16.toNat_inj.mp h)
    omega
  have hweight : (ServiceWeight.new (instanceAt r host port).weight).toOption = some r.weight := by
    rw [instanceAt_weight]
    unfold ServiceWeight.new
    exact congrArg Except.toOption (dif_pos r.weight.valid)
  have hportNat : (instanceAt r host port).port.toNat = port.toNat := by
    rw [instanceAt_port, Int.toNat_natCast]
  unfold toServiceInstance
  rw [if_neg hrange]
  simp only [hportNat, hendpoint, instanceIdOf_built, decodeCapabilities_written hwritten, hweight]
  cases pushSegments crate ['/'] (parts '/' r.endpoint.url.path) with
  | none => rfl
  | some path =>
    have hnew : (ServiceEndpoint.new { r.endpoint.url with path }).toOption =
        some (discovered r path).endpoint :=
      congrArg Except.toOption (dif_pos r.endpoint.valid)
    simp only [Option.map_some, Option.bind_eq_bind, Option.bind_some, hnew, instanceAt_metadata]
    rw [ServiceInstance.withMetadata_ok (userEntries_valid r)]
    rfl

/-! ## Round trips -/

/-- What an instance shares with its registration. -/
structure SameInstance (r : ServiceRegistration) (i : ServiceInstance) : Prop where
  instanceId : i.instanceId = r.instanceId
  endpoint : i.endpoint = r.endpoint
  capabilities : i.capabilities = r.capabilities
  weight : i.weight = r.weight
  metadata : ∀ key, Assoc.get i.metadata key =
    (Assoc.get r.metadata key).or (Assoc.get r.selector.metadata key)

/-- **A registration comes back from Nacos as it was.** -/
def RoundTrips (crate : UrlCrate) (r : ServiceRegistration) (convention : NacosConvention) : Prop :=
  ∃ instance_, buildInstance r = some instance_ ∧
    ∃ i, toServiceInstance crate instance_ convention = some i ∧ SameInstance r i

theorem buildInstance_eq (r : ServiceRegistration) : ∃ host port,
    r.endpoint.url.host = some host ∧ r.endpoint.url.portOrKnownDefault = some port ∧ port ≠ 0 ∧
      buildInstance r = some (instanceAt r host port) := by
  obtain ⟨-, -, ⟨host, hhost⟩, port, hport, hne⟩ := endpoint_facts r.endpoint
  refine ⟨host, port, hhost, hport, hne, ?_⟩
  unfold buildInstance
  rw [hhost, hport]
  rfl

theorem sameInstance_discovered_iff (path : Text) :
    SameInstance r (discovered r path) ↔ path = r.endpoint.url.path := by
  constructor
  · intro h
    exact congrArg (fun endpoint => endpoint.url.path) h.endpoint
  · rintro rfl
    exact ⟨rfl, rfl, rfl, rfl, get_userEntries r⟩

/-- The registrations that come back are those with a canonical path. -/
theorem roundTrips_of_documented (hcrate : crate.Documented)
    (hurl : ∃ text, crate.parse text = some r.endpoint.url) (convention : NacosConvention) :
    RoundTrips crate r convention ↔ CanonicalPath crate r.endpoint.url.path := by
  obtain ⟨text, hurl⟩ := hurl
  obtain ⟨host, port, hhost, hport, hne, hbuild⟩ := buildInstance_eq r
  have hread := toServiceInstance_built hcrate hurl hhost hport hne convention
  rw [← pushSegments_eq_iff hcrate.slash]
  unfold RoundTrips
  rw [hbuild]
  constructor
  · rintro ⟨_, ⟨⟩, i, hi, hsame⟩
    rw [hread] at hi
    obtain ⟨path, hpath, rfl⟩ := Option.map_eq_some_iff.mp hi
    rw [hpath, (sameInstance_discovered_iff path).mp hsame]
  · intro hpath
    refine ⟨_, rfl, discovered r r.endpoint.url.path, ?_, (sameInstance_discovered_iff _).mpr rfl⟩
    rw [hread, hpath]
    rfl

/-- **Which registrations come back from Nacos as they were.** -/
theorem endpoint_comes_back_iff (crate : UrlCrate) (r : ServiceRegistration) (convention : NacosConvention)
    (hcrate : crate.Documented) (hurl : ∃ text, crate.parse text = some r.endpoint.url) :
    RoundTrips crate r convention ↔ CanonicalPath crate r.endpoint.url.path :=
  roundTrips_of_documented hcrate hurl convention

end

/-! ### A service of users -/

def usersUrl (path : Text) : Url where
  scheme := "http".toList
  cannotBeABase := false
  username := []
  password := none
  host := some "127.0.0.1".toList
  port := some 8080
  path
  query := none
  fragment := none

def usersOrigin : Text := "http://127.0.0.1:8080".toList

/-- A parser of this URL and its origin. -/
def usersCrate (path : Text) : UrlCrate where
  parse text :=
    if text = usersOrigin ++ path then some (usersUrl path)
    else if text = usersOrigin then some (usersUrl ['/'])
    else none
  encodeSegment := PercentCodec.utf8.encode
  isIpv6Addr _ := false
  codec := .utf8

theorem usersCrate_parse {path text : Text} {url : Url} (h : (usersCrate path).parse text = some url) :
    ∃ path', url = usersUrl path' := by
  unfold usersCrate at h
  simp only at h
  split at h
  · exact ⟨path, (Option.some.inj h).symm⟩
  · split at h
    · exact ⟨['/'], (Option.some.inj h).symm⟩
    · cases h

theorem usersCrate_documented {path : Text} (hpath : path ≠ []) : (usersCrate path).Documented where
  origin := by
    rintro text ⟨url, hvalid⟩ host port hparse hhost hport
    obtain ⟨path', rfl⟩ := usersCrate_parse hparse
    cases hhost
    cases hport
    have hne : usersOrigin ≠ usersOrigin ++ path := by simpa using hpath
    show (if usersOrigin = usersOrigin ++ path then _ else _) = _
    rw [if_neg hne]
    exact if_pos rfl
  host := by
    rintro text ⟨url, hvalid⟩ host hparse hhost
    obtain ⟨path', rfl⟩ := usersCrate_parse hparse
    cases hhost
    exact Or.inr ⟨by decide, rfl⟩
  slash s := PercentCodec.utf8.notMem_encode s (by decide) (by decide)

def usersSelector (group : Option Text) (hgroup : ∀ g ∈ group, isIdentityComponent g = true) :
    ServiceSelector :=
  ⟨"users".toList, group, none, [], by decide, hgroup, isIdentityComponent_of_mem_none,
    validateUserMetadata_nil, List.nodup_nil⟩

def usersRegistration (group : Option Text) (hgroup : ∀ g ∈ group, isIdentityComponent g = true)
    (path : Text) : ServiceRegistration where
  instanceId := ⟨"users-1".toList, by decide⟩
  descriptor := ⟨usersSelector group hgroup, [usersMethod], by decide⟩
  endpoint := ⟨usersUrl path, by rfl⟩
  capabilities := .default
  weight := ⟨.finite 1, by decide⟩
  metadata := [("zone".toList, "east".toList)]
  metadata_valid := by rfl
  metadata_distinct := by decide

theorem users_parsed (group : Option Text) (hgroup : ∀ g ∈ group, isIdentityComponent g = true)
    (path : Text) :
    ∃ text, (usersCrate path).parse text = some (usersRegistration group hgroup path).endpoint.url :=
  ⟨usersOrigin ++ path, if_pos rfl⟩

theorem users_roundTrips : RoundTrips (usersCrate "/rpc".toList)
    (usersRegistration none nofun "/rpc".toList) .canonical := by
  refine (endpoint_comes_back_iff _ _ .canonical (usersCrate_documented (by decide))
    (users_parsed none nofun _)).mpr ⟨by decide, ?_⟩
  intro segment hsegment
  have hrpc : segment = "rpc".toList := List.mem_singleton.mp hsegment
  refine ⟨"rpc".toList, ?_, by decide, by decide, ?_⟩
  · rw [hrpc]
    decide +kernel
  · rw [hrpc]
    decide +kernel

/-- A doubled slash is lost. -/
theorem users_doubledSlash_lost : ¬ RoundTrips (usersCrate "/rpc//v1".toList)
    (usersRegistration none nofun "/rpc//v1".toList) .canonical := by
  rw [roundTrips_of_documented (usersCrate_documented (by decide)) (users_parsed none nofun _)]
  intro h
  exact absurd h.1 (by decide)

end Fusen.Nacos
