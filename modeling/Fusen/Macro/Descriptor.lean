import Fusen.Macro.Interface

/-!
# Descriptors of generated code (`procedural-macro/service_macro.rs`, `fusen/interface.rs`)

`descriptor` is what the code generated for an interface runs at startup.
`descriptor_accepted`: it succeeds for every interface the macro lets pass, so the two
implementations of the mapping rules agree.
-/

namespace Fusen.Macro

open Lib Contract

/-! ## The generated code -/

/-- The `ArgumentSource` of a parameter that goes over the wire. -/
def argumentSource : ParameterSource → Option HttpParameterSource
  | .context => none
  | .path => some .path
  | .query => some .query
  | .header => some .header
  | .cookie => some .cookie
  | .bodyField => some .bodyField
  | .body => some .body
  | .queryMap => some .queryMap
  | .headerMap => some .headerMap

structure ArgumentField where
  name : Text
  source : HttpParameterSource
  repeated : Bool
deriving DecidableEq

def cardinalityOf (repeated : Bool) : HttpParameterCardinality :=
  if repeated then .repeated else .scalar

def httpMethod (canonicalMediaType : Text → Option Text) (method : Method)
    (path consumes produces : Text) (fields : List ArgumentField) :
    Except ContractError HttpOperation := do
  let parameters ← fields.mapM fun field =>
    HttpParameter.new field.name field.source (cardinalityOf field.repeated)
  HttpOperation.new canonicalMediaType method path parameters consumes produces

/-- The constant `http::Method::NAME`. -/
def methodConstant (name : Text) : Method :=
  (supportedMethods.find? fun m => methodText m = name).getD (.extension name)

section

variable {τ : Type}

def Parameter.field (p : Parameter τ) : Option ArgumentField :=
  (argumentSource p.source).map fun source => ⟨p.wireName, source, p.repeated⟩

def argumentFields (parameters : List (Parameter τ)) : List ArgumentField :=
  parameters.filterMap Parameter.field

def methodDescriptor (canonicalMediaType : Text → Option Text) (method : ServiceMethod τ)
    (index : Nat) : Except ContractError MethodDescriptor := do
  let http ← httpMethod canonicalMediaType (methodConstant method.http.method) method.http.path
    method.http.consumes method.http.produces (argumentFields method.parameters)
  MethodDescriptor.new (index % 65536) (trimRaw method.ident) http

def descriptor (canonicalMediaType : Text → Option Text) (interface : Service τ) :
    Except ContractError ServiceDescriptor := do
  let selector ← ServiceSelector.new interface.name interface.group interface.version
  let methods ← interface.methods.zipIdx.mapM fun m => methodDescriptor canonicalMediaType m.1 m.2
  ServiceDescriptor.new selector methods

end

/-! ## What the contract accepts -/

theorem scanParameters_eq_ok {s : ParameterScan} {ps : List HttpParameter}
    (hnames : (s.names ++ ps.map HttpParameter.name).Nodup)
    (hrepeated : ∀ p ∈ ps, p.cardinality = .repeated → p.source = .query) :
    scanParameters s ps = .ok (ps.foldl ParameterScan.add s) := by
  induction ps generalizing s with
  | nil => rfl
  | cons p ps ih =>
    rw [List.forall_mem_cons] at hrepeated
    have hfresh : p.name ∉ s.names := by
      intro hmem
      rw [List.nodup_append] at hnames
      exact hnames.2.2 _ hmem _ (List.mem_cons_self ..) rfl
    have hsource : ¬ (p.cardinality = .repeated ∧ p.source ≠ .query) := fun h =>
      h.2 (hrepeated.1 h.1)
    rw [scanParameters, if_neg (by simpa using hfresh), if_neg hsource, List.foldl_cons]
    apply ih _ hrepeated.2
    rw [List.map_cons] at hnames
    simpa [ParameterScan.add] using hnames

/-- **What `HttpOperation::new` accepts** besides the media types. -/
theorem validateHttpOperation_eq_ok {method : Method} {path : Text} {ps : List HttpParameter}
    {placeholders : List Text} (hmethod : isSupportedMethod method = true)
    (hroute : validateHttpRoute path = .ok placeholders)
    (hnames : (ps.map HttpParameter.name).Nodup)
    (hrepeated : ∀ p ∈ ps, p.cardinality = .repeated → p.source = .query)
    (hbody : ps.countP (fun p => p.source = .body) ≤ 1)
    (hmodes : ps.countP (fun p => p.source = .body) = 0 ∨
      ps.countP (fun p => p.source = .bodyField) = 0)
    (hqueryMap : ps.countP (fun p => p.source = .queryMap) ≤ 1)
    (hheaderMap : ps.countP (fun p => p.source = .headerMap) ≤ 1)
    (hrefused : method = .get ∨ method = .head ∨ method = .options →
      ps.countP (fun p => p.source = .body) = 0 ∧ ps.countP (fun p => p.source = .bodyField) = 0)
    (hpath : ∀ n, n ∈ placeholders ↔ ∃ p ∈ ps, p.source = .path ∧ p.name = n) :
    validateHttpOperation method path ps = .ok () := by
  have hscan := @scanParameters_eq_ok ⟨[], [], 0, 0, 0, 0⟩ ps (by simpa using hnames) hrepeated
  have hpaths := foldl_add_pathParameters ⟨[], [], 0, 0, 0, 0⟩ ps
  have hmaps := foldl_add_mapCounts ⟨[], [], 0, 0, 0, 0⟩ ps
  have hbodies := foldl_add_bodyCounts ⟨[], [], 0, 0, 0, 0⟩ ps
  unfold validateHttpOperation
  rw [if_neg (by simp [hmethod]), hroute]
  dsimp only
  rw [hscan]
  dsimp only
  rw [hmaps.1, hmaps.2, hbodies.1, hbodies.2, hpaths]
  simp only [Nat.zero_add, List.nil_append]
  rw [if_neg (by omega), if_neg (by omega), if_neg (by omega), if_neg (by omega),
    if_neg (fun h => by have := hrefused h.1; omega)]
  rw [if_neg]
  rw [Bool.not_eq_true, Bool.not_eq_false', sameNames_iff]
  intro n
  rw [hpath n]
  simp [and_assoc]

theorem HttpOperation.new_eq_ok {canonicalMediaType : Text → Option Text} {method : Method}
    {path consumes produces : Text} {ps : List HttpParameter}
    (hconsumes : (canonicalMediaType consumes).isSome = true)
    (hproduces : (canonicalMediaType produces).isSome = true)
    (hvalid : validateHttpOperation method path ps = .ok ()) :
    ∃ op, HttpOperation.new canonicalMediaType method path ps consumes produces = .ok op ∧
      op.method = method ∧ op.path = path := by
  obtain ⟨consumed, hconsumed⟩ := Option.isSome_iff_exists.mp hconsumes
  obtain ⟨produced, hproduced⟩ := Option.isSome_iff_exists.mp hproduces
  unfold HttpOperation.new
  rw [hconsumed]
  dsimp only
  rw [hproduced]
  dsimp only
  split
  · rename_i e h
    rw [hvalid] at h
    cases h
  · exact ⟨_, rfl, rfl, rfl⟩

/-- What a field becomes. -/
def fieldOf (p : HttpParameter) : ArgumentField := ⟨p.name, p.source, p.cardinality = .repeated⟩

theorem mapM_new_fields {fields : List ArgumentField}
    (h : ∀ f ∈ fields, isIdentityComponent f.name = true) :
    ∃ ps, (fields.mapM fun field =>
        HttpParameter.new field.name field.source (cardinalityOf field.repeated)) = .ok ps ∧
      ps.map fieldOf = fields := by
  have hone : ∀ f ∈ fields, ∃ p,
      HttpParameter.new f.name f.source (cardinalityOf f.repeated) = .ok p ∧ fieldOf p = f := by
    intro f hf
    refine ⟨⟨f.name, f.source, cardinalityOf f.repeated, h f hf⟩, ?_, ?_⟩
    · rw [HttpParameter.new, dif_pos (h f hf)]
    · obtain ⟨name, source, repeated⟩ := f
      cases repeated <;> rfl
  obtain ⟨ps, hps, hall⟩ := Except.mapM_ok_of_forall hone
  have hmap := @map_eq_of_forall₂ _ _ _ id fieldOf _ _ hall
  exact ⟨ps, hps, by rw [hmap, List.map_id]⟩

/-! ## Steps of the macro -/

theorem reject_bind_eq_ok_iff {α : Type} {condition : Bool} {text : Text} {f : Unit → Result α}
    {a : α} : (reject condition text >>= f) = .ok a ↔ condition = false ∧ f () = .ok a := by
  cases condition with
  | true => exact iff_of_false (fun h => by cases h) (fun h => by cases h.1)
  | false => exact (and_iff_right rfl).symm

theorem checked_eq_ok_iff {α : Type} {x : Except Text α} {a : α} :
    checked x = .ok a ↔ x = .ok a := by
  cases x with
  | error e => exact iff_of_false (fun h => by cases h) (fun h => by cases h)
  | ok a' => exact ⟨fun h => by cases h; rfl, fun h => by cases h; rfl⟩

section

variable {τ : Type} {types : TypeSyntax τ} {placeholders : List Text} {method : Text}
  {s s' : ParameterState τ} {ident : Text} {declared : Declared} {sensitive : Bool} {ty : τ}

/-- What the loop has checked of a field when it adds it. -/
structure Admitted (placeholders : List Text) (method : Text) (s : ParameterState τ)
    (f : ArgumentField) : Prop where
  identity : isIdentityComponent f.name = true
  fresh : f.name ∉ s.names
  repeated : f.repeated = true → f.source = .query
  path : f.source = .path ↔ f.name ∈ placeholders
  body : f.source = .body ∨ f.source = .bodyField → refusesBody method = false
  rawBody : f.source = .body → s.rawBody = false
  queryMap : f.source = .queryMap → s.queryMap = false
  headerMap : f.source = .headerMap → s.headerMap = false

/-- The variables of the loop after `f` was added. -/
structure Extends (s s' : ParameterState τ) (f : ArgumentField) : Prop where
  fields : argumentFields s'.parameters = argumentFields s.parameters ++ [f]
  names : s'.names = s.names ++ [f.name]
  rawBody : s'.rawBody = (s.rawBody || f.source = .body)
  firstBodyField : s'.firstBodyField = (s.firstBodyField || f.source = .bodyField)
  queryMap : s'.queryMap = (s.queryMap || f.source = .queryMap)
  headerMap : s'.headerMap = (s.headerMap || f.source = .headerMap)

theorem argumentSource_inj {a b : ParameterSource} {x y : HttpParameterSource}
    (ha : argumentSource a = some x) (hb : argumentSource b = some y) : a = b ↔ x = y := by
  constructor
  · rintro rfl
    exact Option.some.inj (ha.symm.trans hb)
  · rintro rfl
    cases a <;> cases ha <;> cases b <;> cases hb <;> rfl

theorem add_extends {p : Parameter τ} (h : p.source ≠ .context) :
    ∃ source, argumentSource p.source = some source ∧
      Extends s (s.add p) ⟨p.wireName, source, p.repeated⟩ := by
  obtain ⟨source, hsource⟩ : ∃ source, argumentSource p.source = some source := by
    cases hp : p.source with
    | context => exact (h hp).elim
    | _ => exact ⟨_, rfl⟩
  have hfield : p.field = some ⟨p.wireName, source, p.repeated⟩ := by
    rw [Parameter.field, hsource]
    rfl
  refine ⟨source, hsource, ?_, rfl, ?_, ?_, ?_, ?_⟩
  · show argumentFields (s.parameters ++ [p]) = _
    rw [argumentFields, List.filterMap_append, List.filterMap_cons, hfield]
    rfl
  · exact congrArg (s.rawBody || ·) (decide_eq_decide.mpr (argumentSource_inj hsource rfl))
  · exact congrArg (s.firstBodyField || ·) (decide_eq_decide.mpr (argumentSource_inj hsource rfl))
  · exact congrArg (s.queryMap || ·) (decide_eq_decide.mpr (argumentSource_inj hsource rfl))
  · exact congrArg (s.headerMap || ·) (decide_eq_decide.mpr (argumentSource_inj hsource rfl))

theorem inferredSource_ne_context {wireName : Text} :
    inferredSource placeholders method wireName ≠ .context := by
  unfold inferredSource
  split
  · simp
  · split <;> simp

theorem addArgument_ok (hdeclared : declared.source ≠ some .context)
    (h : addArgument types placeholders method s ident declared sensitive ty = .ok s') :
    ∃ f, Admitted placeholders method s f ∧ Extends s s' f := by
  unfold addArgument at h
  obtain ⟨_, -, h⟩ := (Except.bind_eq_ok_iff).mp h
  obtain ⟨_, hidentity, h⟩ := (Except.bind_eq_ok_iff).mp h
  rw [checked_eq_ok_iff, validateIdentity_eq_ok_iff] at hidentity
  simp only [reject_bind_eq_ok_iff] at h
  obtain ⟨hfresh, hqueryMap, hheaderMap, hplaceholder, hrepeated, hpath, hrefused, hraw, h⟩ := h
  obtain ⟨_, -, h⟩ := (Except.bind_eq_ok_iff).mp h
  generalize hname : declared.wireName.getD (trimRaw ident) = wireName at *
  have hwire : declared.source.getD (inferredSource placeholders method wireName) ≠ .context := by
    cases hsource : declared.source with
    | none => exact inferredSource_ne_context
    | some source =>
      rw [hsource] at hdeclared
      exact fun hc => hdeclared (congrArg some hc)
  generalize declared.source.getD (inferredSource placeholders method wireName) = source at *
  cases h
  obtain ⟨wire, hsource, hextends⟩ := @add_extends _ s ⟨ident, ty, wireName, source,
    source = .query && declared.repeated, source = .path || source = .query || source = .header ||
      source = .cookie, sensitive⟩ hwire
  have hiff (a : ParameterSource) {x : HttpParameterSource} (hx : argumentSource a = some x) :
      source = a ↔ wire = x := argumentSource_inj hsource hx
  refine ⟨_, ?_, hextends⟩
  constructor
  · exact hidentity
  · simpa using hfresh
  · intro h
    rw [Bool.and_eq_true, decide_eq_true_iff] at h
    exact (hiff .query rfl).mp h.1
  · show wire = .path ↔ wireName ∈ placeholders
    rw [← hiff .path rfl]
    by_cases hp : source = .path
    · simpa [hp] using hpath
    · simpa [hp] using hplaceholder
  · show wire = .body ∨ wire = .bodyField → _
    rw [← hiff .body rfl, ← hiff .bodyField rfl]
    intro h
    rcases h with h | h <;> simpa [h] using hrefused
  · intro h
    rw [← hiff .body rfl] at h
    simpa [h] using hraw
  · intro h
    rw [← hiff .queryMap rfl] at h
    simpa [h] using hqueryMap
  · intro h
    rw [← hiff .headerMap rfl] at h
    simpa [h] using hheaderMap

theorem addContext_ok (h : addContext types s ident declared sensitive ty = .ok s') :
    argumentFields s'.parameters = argumentFields s.parameters ∧ s'.names = s.names ∧
      s'.rawBody = s.rawBody ∧ s'.firstBodyField = s.firstBodyField ∧
      s'.queryMap = s.queryMap ∧ s'.headerMap = s.headerMap := by
  unfold addContext at h
  simp only [reject_bind_eq_ok_iff] at h
  obtain ⟨-, -, -, -, -, h⟩ := h
  cases h
  refine ⟨?_, rfl, rfl, rfl, rfl, rfl⟩
  show argumentFields (s.parameters ++ [_]) = _
  rw [argumentFields, List.filterMap_append]
  exact List.append_nil _

/-! ## The loop -/

/-- **What holds of the fields collected so far.** -/
structure Collected (placeholders : List Text) (method : Text) (s : ParameterState τ) : Prop where
  names : s.names = (argumentFields s.parameters).map ArgumentField.name
  distinct : s.names.Nodup
  fields : ∀ f ∈ argumentFields s.parameters, isIdentityComponent f.name = true ∧
    (f.repeated = true → f.source = .query) ∧ (f.source = .path ↔ f.name ∈ placeholders) ∧
    (f.source = .body ∨ f.source = .bodyField → refusesBody method = false)
  rawBody : (argumentFields s.parameters).countP (fun f => f.source = .body) = s.rawBody.toNat
  bodyField : s.firstBodyField = (argumentFields s.parameters).any fun f => f.source = .bodyField
  queryMap : (argumentFields s.parameters).countP (fun f => f.source = .queryMap) = s.queryMap.toNat
  headerMap :
    (argumentFields s.parameters).countP (fun f => f.source = .headerMap) = s.headerMap.toNat

/-- A source that occurs at most once is counted by its mark. -/
theorem countP_append_mark {fields : List ArgumentField} {f : ArgumentField}
    {source : HttpParameterSource} {mark : Bool}
    (hcount : fields.countP (fun f => f.source = source) = mark.toNat)
    (hmark : f.source = source → mark = false) :
    (fields ++ [f]).countP (fun f => f.source = source) = (mark || f.source = source).toNat := by
  rw [List.countP_append, hcount, List.countP_singleton]
  by_cases h : f.source = source
  · simp [h, hmark h]
  · simp [h]

theorem Collected.extend {f : ArgumentField} (hs : Collected placeholders method s)
    (hf : Admitted placeholders method s f) (he : Extends s s' f) :
    Collected placeholders method s' := by
  constructor
  · rw [he.names, he.fields, hs.names, List.map_append]
    rfl
  · rw [he.names, List.nodup_append]
    refine ⟨hs.distinct, List.nodup_singleton _, ?_⟩
    rintro a ha b hb rfl
    rw [List.mem_singleton] at hb
    exact hf.fresh (hb ▸ ha)
  · rw [he.fields]
    intro g hg
    rcases List.mem_append.mp hg with hg | hg
    · exact hs.fields g hg
    · rw [List.mem_singleton.mp hg]
      exact ⟨hf.identity, hf.repeated, hf.path, hf.body⟩
  · rw [he.fields, he.rawBody]
    exact countP_append_mark hs.rawBody hf.rawBody
  · rw [he.fields, he.firstBodyField, hs.bodyField, List.any_append]
    simp
  · rw [he.fields, he.queryMap]
    exact countP_append_mark hs.queryMap hf.queryMap
  · rw [he.fields, he.headerMap]
    exact countP_append_mark hs.headerMap hf.headerMap

theorem addParameter_collected {input : FnArg τ} (hs : Collected placeholders method s)
    (h : addParameter types placeholders method s input = .ok s') :
    Collected placeholders method s' := by
  cases input with
  | receiver => cases h
  | typed input =>
    unfold addParameter at h
    obtain ⟨ident, -, h⟩ := (Except.bind_eq_ok_iff).mp h
    rw [reject_bind_eq_ok_iff] at h
    obtain ⟨sensitive, -, h⟩ := (Except.bind_eq_ok_iff).mp h.2
    obtain ⟨declared, -, h⟩ := (Except.bind_eq_ok_iff).mp h
    split at h
    · obtain ⟨hfields, hnames, hraw, hbody, hquery, hheader⟩ := addContext_ok h
      obtain ⟨names, distinct, fields, rawBody, bodyField, queryMap, headerMap⟩ := hs
      constructor <;> simpa only [hfields, hnames, hraw, hbody, hquery, hheader]
    · rename_i hsource
      obtain ⟨f, hf, he⟩ := addArgument_ok hsource h
      exact hs.extend hf he

/-- What `parameters` has checked of a method. -/
structure Mapped (http : HttpMapping) (parameters : List (Parameter τ)) : Prop where
  route : ∃ placeholders, validateHttpRoute http.path = .ok placeholders ∧
    ∀ n, n ∈ placeholders ↔ ∃ f ∈ argumentFields parameters, f.source = .path ∧ f.name = n
  names : ((argumentFields parameters).map ArgumentField.name).Nodup
  fields : ∀ f ∈ argumentFields parameters, isIdentityComponent f.name = true ∧
    (f.repeated = true → f.source = .query) ∧
    (f.source = .body ∨ f.source = .bodyField → refusesBody http.method = false)
  body : (argumentFields parameters).countP (fun f => f.source = .body) ≤ 1
  modes : (argumentFields parameters).countP (fun f => f.source = .body) = 0 ∨
    (argumentFields parameters).countP (fun f => f.source = .bodyField) = 0
  queryMap : (argumentFields parameters).countP (fun f => f.source = .queryMap) ≤ 1
  headerMap : (argumentFields parameters).countP (fun f => f.source = .headerMap) ≤ 1

/-- A parameter of the path is a field of it. -/
theorem field_of_path {ps : List (Parameter τ)} {p : Parameter τ} (hp : p ∈ ps)
    (h : p.source = .path) : ∃ f ∈ argumentFields ps, f.source = .path ∧ f.name = p.wireName := by
  refine ⟨⟨p.wireName, .path, p.repeated⟩, List.mem_filterMap.mpr ⟨p, hp, ?_⟩, rfl, rfl⟩
  rw [Parameter.field, h]
  rfl

theorem parameters_ok {signature : Signature τ} {http : HttpMapping} {ps : List (Parameter τ)}
    (h : parameters types signature http = .ok ps) : Mapped http ps := by
  unfold parameters at h
  obtain ⟨placeholders, hroute, h⟩ := (Except.bind_eq_ok_iff).mp h
  obtain ⟨s, hloop, h⟩ := (Except.bind_eq_ok_iff).mp h
  have hs : Collected placeholders http.method s := by
    refine Except.foldlM_invariant (fun s input s' hs h => addParameter_collected hs h) hloop ?_
    exact ⟨rfl, List.nodup_nil, by simp [argumentFields], rfl, rfl, rfl, rfl⟩
  split at h
  · cases h
  rename_i hall
  rw [reject_bind_eq_ok_iff] at h
  obtain ⟨hmodes, h⟩ := h
  cases h
  have haccepts : validateHttpRoute http.path = .ok placeholders := by
    have hagrees := validateRoute_agrees http.path
    rw [(checked_eq_ok_iff).mp hroute] at hagrees
    cases hcontract : validateHttpRoute http.path with
    | error e =>
      rw [hcontract] at hagrees
      cases hagrees
    | ok placeholders' =>
      rw [hcontract] at hagrees
      cases hagrees
      rfl
  have hmark (b : Bool) : b.toNat ≤ 1 := by cases b <;> decide
  constructor
  · refine ⟨placeholders, haccepts, fun n => ⟨fun hn => ?_, ?_⟩⟩
    · have hfound := List.find?_eq_none.mp hall n ((mem_orderedSet).mpr hn)
      rw [Bool.not_eq_true, Bool.not_eq_false', List.any_eq_true] at hfound
      obtain ⟨p, hp, hpath⟩ := hfound
      rw [Bool.and_eq_true, decide_eq_true_iff, decide_eq_true_iff] at hpath
      obtain ⟨f, hf, hsource, hname⟩ := field_of_path hp hpath.1
      exact ⟨f, hf, hsource, hname.trans hpath.2⟩
    · rintro ⟨f, hf, hsource, rfl⟩
      exact (hs.fields f hf).2.2.1.mp hsource
  · rw [← hs.names]
    exact hs.distinct
  · intro f hf
    obtain ⟨hidentity, hrepeated, -, hbody⟩ := hs.fields f hf
    exact ⟨hidentity, hrepeated, hbody⟩
  · rw [hs.rawBody]
    exact hmark _
  · rw [Bool.and_eq_false_iff] at hmodes
    rcases hmodes with hraw | hfield
    · left
      rw [hs.rawBody, hraw]
      rfl
    · right
      rw [hs.bodyField, List.any_eq_false] at hfield
      exact List.countP_eq_zero.mpr hfield
  · rw [hs.queryMap]
    exact hmark _
  · rw [hs.headerMap]
    exact hmark _

/-! ## Methods -/

theorem methodText_methodConstant (name : Text) : methodText (methodConstant name) = name := by
  unfold methodConstant
  cases h : supportedMethods.find? fun m => methodText m = name with
  | none => rfl
  | some m => simpa using List.find?_some h

theorem isSupportedMethod_methodConstant {name : Text} (h : httpMethods.contains name = true) :
    isSupportedMethod (methodConstant name) = true := by
  have hall : ∀ name ∈ httpMethods, isSupportedMethod (methodConstant name) = true := by decide
  exact hall name (List.contains_iff_mem.mp h)

theorem refusesBody_of_method {name : Text} (h : methodConstant name = .get ∨
    methodConstant name = .head ∨ methodConstant name = .options) : refusesBody name = true := by
  have hname := methodText_methodConstant name
  rcases h with h | h | h <;> rw [h] at hname <;> rw [← hname] <;> decide

/-- The fields of an accepted method are parameters the contract accepts. -/
theorem httpMethod_accepted {canonicalMediaType : Text → Option Text} {http : HttpMapping}
    {ps : List (Parameter τ)} (hmethod : httpMethods.contains http.method = true)
    (hconsumes : (canonicalMediaType http.consumes).isSome = true)
    (hproduces : (canonicalMediaType http.produces).isSome = true) (h : Mapped http ps) :
    ∃ op, httpMethod canonicalMediaType (methodConstant http.method) http.path http.consumes
      http.produces (argumentFields ps) = .ok op ∧
      op.method = methodConstant http.method ∧ op.path = http.path := by
  obtain ⟨placeholders, hroute, hpath⟩ := h.route
  obtain ⟨qs, hqs, hfields⟩ := mapM_new_fields fun f hf => (h.fields f hf).1
  have hmem {f : ArgumentField} : f ∈ argumentFields ps ↔ ∃ q ∈ qs, fieldOf q = f := by
    rw [← hfields, List.mem_map]
  have hcount (source : HttpParameterSource) : qs.countP (fun q => q.source = source) =
      (argumentFields ps).countP (fun f => f.source = source) := by
    rw [← hfields, List.countP_map]
    rfl
  have hrefused : refusesBody http.method = true → ∀ source : HttpParameterSource,
      source = .body ∨ source = .bodyField → qs.countP (fun q => q.source = source) = 0 := by
    intro hrefuses source hsource
    rw [hcount, List.countP_eq_zero]
    intro f hf heq
    rw [decide_eq_true_iff] at heq
    have := (h.fields f hf).2.2 (by rwa [heq])
    rw [hrefuses] at this
    cases this
  have hvalid : validateHttpOperation (methodConstant http.method) http.path qs = .ok () := by
    refine validateHttpOperation_eq_ok (isSupportedMethod_methodConstant hmethod) hroute ?_ ?_ ?_ ?_
      ?_ ?_ ?_ ?_
    · have hnames := h.names
      rw [← hfields, List.map_map] at hnames
      exact hnames
    · intro q hq hrepeated
      refine (h.fields (fieldOf q) (hmem.mpr ⟨q, hq, rfl⟩)).2.1 ?_
      exact decide_eq_true hrepeated
    · rw [hcount]
      exact h.body
    · rw [hcount, hcount]
      exact h.modes
    · rw [hcount]
      exact h.queryMap
    · rw [hcount]
      exact h.headerMap
    · intro hm
      exact ⟨hrefused (refusesBody_of_method hm) _ (.inl rfl),
        hrefused (refusesBody_of_method hm) _ (.inr rfl)⟩
    · intro n
      rw [hpath n]
      constructor
      · rintro ⟨f, hf, hsource, hname⟩
        obtain ⟨q, hq, rfl⟩ := hmem.mp hf
        exact ⟨q, hq, hsource, hname⟩
      · rintro ⟨q, hq, hsource, hname⟩
        exact ⟨fieldOf q, hmem.mpr ⟨q, hq, rfl⟩, hsource, hname⟩
  obtain ⟨op, hop, hopMethod, hopPath⟩ := HttpOperation.new_eq_ok hconsumes hproduces hvalid
  refine ⟨op, ?_, hopMethod, hopPath⟩
  unfold httpMethod
  rw [hqs]
  exact hop

theorem validateMediaType_ok {canonicalMediaType : Text → Option Text} {value : Option Text}
    {field : String} {mediaType : Text}
    (hdefault : (canonicalMediaType "application/json".toList).isSome = true)
    (hagain : ∀ s m, canonicalMediaType s = some m → (canonicalMediaType m).isSome = true)
    (h : validateMediaType canonicalMediaType value field = .ok mediaType) :
    (canonicalMediaType mediaType).isSome = true := by
  unfold validateMediaType at h
  cases value with
  | none =>
    cases h
    exact hdefault
  | some raw =>
    dsimp only at h
    cases hraw : canonicalMediaType raw with
    | none =>
      rw [hraw] at h
      cases h
    | some m =>
      rw [hraw] at h
      cases h
      exact hagain raw _ hraw

theorem validateHttp_ok {canonicalMediaType : Text → Option Text} {args : MethodArgs}
    {http : HttpMapping} (hdefault : (canonicalMediaType "application/json".toList).isSome = true)
    (hagain : ∀ s m, canonicalMediaType s = some m → (canonicalMediaType m).isSome = true)
    (h : validateHttp canonicalMediaType args = .ok http) :
    httpMethods.contains http.method = true ∧
      (canonicalMediaType http.consumes).isSome = true ∧
      (canonicalMediaType http.produces).isSome = true := by
  unfold validateHttp at h
  obtain ⟨method, -, h⟩ := (Except.bind_eq_ok_iff).mp h
  obtain ⟨path, -, h⟩ := (Except.bind_eq_ok_iff).mp h
  rw [reject_bind_eq_ok_iff, Bool.not_eq_false'] at h
  obtain ⟨hmethod, h⟩ := h
  obtain ⟨_, -, h⟩ := (Except.bind_eq_ok_iff).mp h
  obtain ⟨consumes, hconsumes, h⟩ := (Except.bind_eq_ok_iff).mp h
  obtain ⟨produces, hproduces, h⟩ := (Except.bind_eq_ok_iff).mp h
  cases h
  exact ⟨hmethod, validateMediaType_ok hdefault hagain hconsumes,
    validateMediaType_ok hdefault hagain hproduces⟩

/-- What the generated code relies on in a method. -/
structure Sound (canonicalMediaType : Text → Option Text) (m : ServiceMethod τ) : Prop where
  name : isIdentityComponent (trimRaw m.ident) = true
  method : httpMethods.contains m.http.method = true
  consumes : (canonicalMediaType m.http.consumes).isSome = true
  produces : (canonicalMediaType m.http.produces).isSome = true
  mapped : Mapped m.http m.parameters

theorem validateMethod_ok {canonicalMediaType : Text → Option Text} {fn : TraitFn τ}
    {m : ServiceMethod τ} (hdefault : (canonicalMediaType "application/json".toList).isSome = true)
    (hagain : ∀ s m, canonicalMediaType s = some m → (canonicalMediaType m).isSome = true)
    (h : validateMethod types canonicalMediaType fn = .ok m) :
    m.ident = fn.signature.ident ∧ Sound canonicalMediaType m := by
  unfold validateMethod at h
  obtain ⟨_, -, h⟩ := (Except.bind_eq_ok_iff).mp h
  rw [reject_bind_eq_ok_iff] at h
  obtain ⟨_, -, h⟩ := (Except.bind_eq_ok_iff).mp h.2
  obtain ⟨_, hname, h⟩ := (Except.bind_eq_ok_iff).mp h
  obtain ⟨args, -, h⟩ := (Except.bind_eq_ok_iff).mp h
  obtain ⟨http, hhttp, h⟩ := (Except.bind_eq_ok_iff).mp h
  obtain ⟨ps, hps, h⟩ := (Except.bind_eq_ok_iff).mp h
  obtain ⟨response, -, h⟩ := (Except.bind_eq_ok_iff).mp h
  rw [reject_bind_eq_ok_iff] at h
  obtain ⟨-, h⟩ := h
  cases h
  obtain ⟨hmethod, hconsumes, hproduces⟩ := validateHttp_ok hdefault hagain hhttp
  refine ⟨rfl, ?_, hmethod, hconsumes, hproduces, parameters_ok hps⟩
  exact (validateIdentity_eq_ok_iff).mp ((checked_eq_ok_iff).mp hname)

/-! ## The trait -/

/-- What the macro compares of a method's route. -/
def routeKey (m : ServiceMethod τ) : Text × Text := (m.http.method, routeShape m.http.path)

theorem validateItems_ok {canonicalMediaType : Text → Option Text}
    {routes : List ((Text × Text) × Text)} {items : List (TraitItem τ)}
    {methods : List (ServiceMethod τ)}
    (hdefault : (canonicalMediaType "application/json".toList).isSome = true)
    (hagain : ∀ s m, canonicalMediaType s = some m → (canonicalMediaType m).isSome = true)
    (h : validateItems types canonicalMediaType routes items = .ok methods) :
    methods.map (fun m => trimRaw m.ident) = items.filterMap TraitItem.name? ∧
      methods.length = items.length ∧ (∀ m ∈ methods, Sound canonicalMediaType m) ∧
      (methods.map routeKey).Nodup ∧ ∀ m ∈ methods, routeKey m ∉ routes.map Prod.fst := by
  induction items generalizing routes methods with
  | nil =>
    cases h
    exact ⟨rfl, rfl, by simp, List.nodup_nil, by simp⟩
  | cons item rest ih =>
    cases item with
    | other => cases h
    | fn fn =>
      unfold validateItems at h
      obtain ⟨m, hm, h⟩ := (Except.bind_eq_ok_iff).mp h
      obtain ⟨hident, hsound⟩ := validateMethod_ok hdefault hagain hm
      dsimp only at h
      split at h
      · cases h
      rename_i hnew
      obtain ⟨later, hlater, h⟩ := (Except.bind_eq_ok_iff).mp h
      cases h
      obtain ⟨hnames, hlength, hall, hkeys, hfresh⟩ := ih hlater
      have hnew : routeKey m ∉ routes.map Prod.fst := by
        intro hmem
        obtain ⟨r, hr, heq⟩ := List.mem_map.mp hmem
        have hr := List.find?_eq_none.mp hnew r hr
        rw [decide_eq_true_iff] at hr
        exact hr heq
      refine ⟨?_, by rw [List.length_cons, List.length_cons, hlength],
        List.forall_mem_cons.mpr ⟨hsound, hall⟩, ?_, ?_⟩
      · rw [List.map_cons, hnames, List.filterMap_cons]
        show _ = trimRaw fn.signature.ident :: _
        rw [hident]
      · rw [List.map_cons, List.nodup_cons]
        refine ⟨fun hmem => ?_, hkeys⟩
        obtain ⟨m', hm', heq⟩ := List.mem_map.mp hmem
        refine hfresh m' hm' ?_
        rw [List.map_append, heq]
        exact List.mem_append_right _ (List.mem_singleton_self _)
      · rw [List.forall_mem_cons]
        refine ⟨hnew, fun m' hm' hmem => hfresh m' hm' ?_⟩
        rw [List.map_append]
        exact List.mem_append_left _ hmem

theorem tail_flatMap_cons (c : Char) (pieces : List Text) :
    (pieces.flatMap fun piece => c :: piece).tail = [c].intercalate pieces := by
  cases pieces with
  | nil => rfl
  | cons p pieces =>
    rw [List.flatMap_cons, List.cons_append, List.tail_cons]
    induction pieces generalizing p with
    | nil => simp [List.intercalate]
    | cons q pieces ih =>
      rw [List.flatMap_cons, List.cons_append, ih q]
      simp [List.intercalate, List.intersperse]

/-- The macro and the contract compare the same texts. -/
theorem routeShape_eq (path : Text) : routeShape path = httpRouteShape path := by
  unfold routeShape httpRouteShape
  rw [← tail_flatMap_cons, List.flatMap_map]
  rfl

theorem methodDescriptor_accepted {canonicalMediaType : Text → Option Text} {m : ServiceMethod τ}
    {index : Nat} (h : Sound canonicalMediaType m) (hindex : index < 65536) :
    ∃ d, methodDescriptor canonicalMediaType m index = .ok d ∧ d.id = index ∧
      d.invocationName = trimRaw m.ident ∧ routeText d.http = routeKey m := by
  obtain ⟨op, hop, hmethod, hpath⟩ := httpMethod_accepted h.method h.consumes h.produces h.mapped
  refine ⟨⟨index, trimRaw m.ident, op, h.name⟩, ?_, rfl, rfl, ?_⟩
  · unfold methodDescriptor
    rw [hop]
    show MethodDescriptor.new (index % 65536) (trimRaw m.ident) op = _
    rw [MethodDescriptor.new, dif_pos h.name, Nat.mod_eq_of_lt hindex]
  · show (methodText op.method, httpRouteShape op.path) = _
    rw [hmethod, hpath, methodText_methodConstant, ← routeShape_eq]
    rfl

theorem ServiceDescriptor.new_eq_ok {selector : ServiceSelector} {methods : List MethodDescriptor}
    (h : validateMethods methods = .ok ()) :
    ∃ d, ServiceDescriptor.new selector methods = .ok d ∧ d.methods = methods := by
  unfold ServiceDescriptor.new
  split
  · rename_i e he
    rw [h] at he
    cases he
  · exact ⟨_, rfl, rfl⟩

theorem validateOptionalIdentity_ok {value : Option Text} {field : String}
    (h : validateOptionalIdentity value field = .ok ()) :
    ∀ v ∈ value, isIdentityComponent v = true := by
  intro v hv
  cases hv
  exact (validateIdentity_eq_ok_iff).mp ((checked_eq_ok_iff).mp h)

theorem validate_ok {canonicalMediaType : Text → Option Text} {args : ServiceArgs}
    {item : ItemTrait τ} {service : Service τ}
    (h : validate types canonicalMediaType args item = .ok service) :
    (isIdentityComponent service.name = true ∧
      (∀ g ∈ service.group, isIdentityComponent g = true) ∧
      ∀ v ∈ service.version, isIdentityComponent v = true) ∧
    item.items ≠ [] ∧ item.items.length ≤ 65536 ∧
    validateItems types canonicalMediaType [] item.items = .ok service.methods := by
  unfold validate at h
  simp only [reject_bind_eq_ok_iff] at h
  obtain ⟨-, -, -, h⟩ := h
  obtain ⟨_, -, h⟩ := (Except.bind_eq_ok_iff).mp h
  obtain ⟨name, -, h⟩ := (Except.bind_eq_ok_iff).mp h
  obtain ⟨_, hname, h⟩ := (Except.bind_eq_ok_iff).mp h
  obtain ⟨_, hgroup, h⟩ := (Except.bind_eq_ok_iff).mp h
  obtain ⟨_, hversion, h⟩ := (Except.bind_eq_ok_iff).mp h
  simp only [reject_bind_eq_ok_iff] at h
  obtain ⟨hempty, hmany, h⟩ := h
  obtain ⟨methods, hmethods, h⟩ := (Except.bind_eq_ok_iff).mp h
  cases h
  refine ⟨⟨?_, validateOptionalIdentity_ok hgroup, validateOptionalIdentity_ok hversion⟩, ?_, ?_,
    hmethods⟩
  · exact (validateIdentity_eq_ok_iff).mp ((checked_eq_ok_iff).mp hname)
  · simpa using hempty
  · simpa using hmany

/-- **No interface that the macro accepts fails at startup.**  `canonicalMediaType` is the
parser of the `mime` crate: a text it has written parses again, and JSON is a media type. -/
theorem descriptor_accepted (types : TypeSyntax τ) (canonicalMediaType : Text → Option Text)
    (hdefault : (canonicalMediaType "application/json".toList).isSome = true)
    (hagain : ∀ s m, canonicalMediaType s = some m → (canonicalMediaType m).isSome = true)
    (args : ServiceArgs) (item : ItemTrait τ) (service : Service τ)
    (h : validate types canonicalMediaType args item = .ok service) :
    ∃ d, descriptor canonicalMediaType service = .ok d ∧
      d.methods.map (fun m => m.invocationName) = item.items.filterMap TraitItem.name? ∧
      d.methods.map (fun m => routeText m.http) = service.methods.map routeKey := by
  obtain ⟨hselector, hempty, hmany, hitems⟩ := validate_ok h
  obtain ⟨hnames, hlength, hsound, hkeys, -⟩ := validateItems_ok hdefault hagain hitems
  have hone : ∀ m ∈ service.methods.zipIdx, ∃ d,
      methodDescriptor canonicalMediaType m.1 m.2 = .ok d ∧ d.id = m.2 ∧
        d.invocationName = trimRaw m.1.ident ∧ routeText d.http = routeKey m.1 := by
    intro m hm
    obtain ⟨-, hlt, hget⟩ := List.mem_zipIdx hm
    refine methodDescriptor_accepted (hsound m.1 ?_) (by omega)
    rw [hget]
    exact List.getElem_mem _
  obtain ⟨ds, hds, hall⟩ := Except.mapM_ok_of_forall hone
  have hids : ds.map MethodDescriptor.id = List.range' 0 service.methods.length := by
    rw [map_eq_of_forall₂ (hall.imp fun _ _ h => h.1), List.zipIdx_map_snd]
  have hinvocations : ds.map MethodDescriptor.invocationName =
      item.items.filterMap TraitItem.name? := by
    rw [map_eq_of_forall₂ (hall.imp fun _ _ h => h.2.1), ← hnames]
    conv_rhs => rw [← List.zipIdx_map_fst 0 service.methods]
    rw [List.map_map]
    rfl
  have hroutes : (ds.map fun d => routeText d.http) = service.methods.map routeKey := by
    rw [map_eq_of_forall₂ (hall.imp fun _ _ h => h.2.2)]
    conv_rhs => rw [← List.zipIdx_map_fst 0 service.methods]
    rw [List.map_map]
    rfl
  have hlen : ds.length = service.methods.length := by
    rw [← List.length_map MethodDescriptor.id, hids, List.length_range']
  have hvalid : validateMethods ds = .ok () := by
    unfold validateMethods
    rw [if_neg, validateMethodsFrom_ok_iff]
    · refine ⟨by rw [hids, hlen], ⟨?_, by simp⟩, ?_, by simp⟩
      · rw [hinvocations]
        exact item.distinct
      · rw [hroutes]
        exact hkeys
    · rintro rfl
      rw [List.length_nil, hlength] at hlen
      exact hempty (List.eq_nil_of_length_eq_zero hlen.symm)
  obtain ⟨d, hd, hmethods⟩ := @ServiceDescriptor.new_eq_ok
    ⟨service.name, service.group, service.version, [], hselector.1, hselector.2.1, hselector.2.2,
      validateUserMetadata_nil, List.nodup_nil⟩ _ hvalid
  refine ⟨d, ?_, by rw [hmethods]; exact hinvocations, by rw [hmethods]; exact hroutes⟩
  unfold descriptor ServiceSelector.new
  rw [dif_pos hselector]
  exact (Except.bind_eq_ok_iff).mpr ⟨_, rfl, (Except.bind_eq_ok_iff).mpr ⟨ds, hds, hd⟩⟩

end

/-! ## An interface -/

/-- `#[method(method = "get", path = "/users/{id}")] async fn get(&self, id: T) -> …`. -/
def usersFn : TraitFn Unit where
  conditional := false
  attributes := [.list (.ok [.named "method".toList (some "get".toList),
    .named "path".toList (some ("/users/".toList ++ '{' :: "id".toList ++ ['}']))])]
  hasDefault := false
  signature := ⟨"get".toList, true, false, [.receiver false true,
    .typed ⟨false, some "id".toList, false, .ok false, [], ()⟩], some ()⟩

def usersTrait : ItemTrait Unit := ⟨true, false, false, false, [.fn usersFn], List.nodup_singleton _⟩

/-- One type, which is neither `Call`, `Option`, `Vec` nor `()`. -/
def oneType : TypeSyntax Unit where
  isCall _ := false
  directStandardGenericType _ _ := none
  validateOwnedType _ := .ok ()
  responseType
    | some () => .ok ()
    | none => fail "service invocation methods must return Result<Response<T>, Error>".toList
  isUnit _ := false

def usersService : Service Unit where
  name := "users".toList
  group := none
  version := none
  methods := [⟨"get".toList,
    [⟨"id".toList, (), "id".toList, .path, false, true, false⟩], (),
    ⟨"GET".toList, "/users/".toList ++ '{' :: "id".toList ++ ['}'], "application/json".toList,
      "application/json".toList⟩⟩]

/-- Knows JSON only. -/
def jsonOnly (s : Text) : Option Text :=
  if s = "application/json".toList then some s else none

theorem usersTrait_accepted :
    validate oneType jsonOnly ⟨some "users".toList, none, none⟩ usersTrait = .ok usersService := by
  decide +kernel

theorem descriptor_accepted_users : ∃ d, descriptor jsonOnly usersService = .ok d ∧
    d.methods.map (fun m => m.invocationName) = ["get".toList] ∧
    d.methods.map (fun m => routeText m.http) = usersService.methods.map routeKey := by
  refine descriptor_accepted oneType jsonOnly (by decide) ?_ _ usersTrait usersService
    usersTrait_accepted
  intro s m h
  unfold jsonOnly at h
  split at h
  · cases h
    rename_i hs
    rw [hs]
    decide
  · cases h

end Fusen.Macro
