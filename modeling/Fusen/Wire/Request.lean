import Fusen.Contract.Service
import Fusen.Lib.Percent
import Fusen.Lib.Result
import Fusen.Lib.SortedMap
import Fusen.Wire.Headers
import Mathlib.Data.Char
import Mathlib.Data.List.Lex

/-!
# Request encoding (`wire/mod.rs`)

`encodeJsonRequest` turns the arguments of an operation into a request: one pass
over the parameters substitutes into the path, appends to the query, binds headers
and cookies and collects the body.  The lemmas after it take the pass apart: what a
successful encoding did to the path, to the query, to the headers and to the cookies
depends on the parameters of those sources alone.
-/

namespace Fusen.Wire

open Lib Contract

/-- Named arguments, on either side of the wire. -/
abbrev Arguments := List (Text × Json)

/-- An argument that is not listed is `null`. -/
def Arguments.value (arguments : Arguments) (name : Text) : Json :=
  (Assoc.get arguments name).getD .null

structure RequestEncoding where
  operation : HttpOperation
  arguments : Arguments
  headers : HeaderMap
  distinct : ∀ e ∈ arguments, e.2.DistinctKeys

structure EncodedRequest where
  method : Method
  pathAndQuery : Text
  headers : HeaderMap
  body : List UInt8

/-! ## Errors -/

def headerConflict (name : HeaderName) : Error :=
  .framework .invalidArgument "header_binding_conflict"
    ("HTTP header ".toList ++ name.text ++ " has more than one owner".toList)

def invalidQueryCardinality (name : Text) (detail : String) : Error :=
  .framework .invalidArgument "invalid_http_parameter"
    ("HTTP query argument ".toList ++ name ++ [' '] ++ detail.toList)

/-! ## Scalars -/

def scalarText (value : Json) (name : Text) : Except Error Text :=
  match value with
  | .string value => .ok value
  | .bool value => .ok (if value then "true".toList else "false".toList)
  | .number text => .ok text
  | .null | .array _ | .object _ =>
    .error (.framework .invalidArgument "invalid_http_parameter"
      ("HTTP text argument ".toList ++ name ++ " must be a scalar".toList))

def isCookieByte (b : UInt8) : Bool :=
  let n := b.toNat
  n = 0x21 || (0x23 ≤ n && n ≤ 0x2B) || (0x2D ≤ n && n ≤ 0x3A) || (0x3C ≤ n && n ≤ 0x5B) ||
    (0x5D ≤ n && n ≤ 0x7E)

def cookieText (value : Json) (name : Text) : Except Error Text := do
  let text ← scalarText value name
  if (utf8 text).all isCookieByte then .ok text
  else .error (.framework .invalidArgument "invalid_cookie_parameter"
    ("cookie argument ".toList ++ name ++
      " contains a character that is not allowed on the wire".toList))

/-! ## Query -/

section Query

variable (codec : PercentCodec)

def queryPair (name value : Text) : Text := codec.encode name ++ '=' :: codec.encode value

def appendScalar (query : List Text) (name : Text) (value : Json) : Except Error (List Text) :=
  match value with
  | .null => .ok query
  | .array _ => .error (invalidQueryCardinality name
      "is an array but is declared scalar; add `#[param(query, repeated)]`")
  | value => do
    let text ← scalarText value name
    .ok (query ++ [queryPair codec name text])

/-- The loop over the items of a repeated argument. -/
def appendItems (query : List Text) (name : Text) : List Json → Except Error (List Text)
  | [] => .ok query
  | value :: values => do
    let text ← scalarText value name
    appendItems (query ++ [queryPair codec name text]) name values

def appendQuery (query : List Text) (name : Text) (cardinality : HttpParameterCardinality)
    (value : Json) : Except Error (List Text) :=
  match cardinality with
  | .scalar => appendScalar codec query name value
  | .repeated =>
    match value with
    | .array values => appendItems codec query name values
    | _ => .error (invalidQueryCardinality name
        "is declared repeated but did not serialize as an array; serialize it as an array or remove `repeated`")

def queryContains (query : List Text) (name : Text) : Bool :=
  query.any fun pair => (codec.encode name ++ ['=']).isPrefixOf pair

/-- The loop over the values of one map entry. -/
def appendScalars (query : List Text) (name : Text) : List Json → Except Error (List Text)
  | [] => .ok query
  | value :: values => do
    let query ← appendScalar codec query name value
    appendScalars query name values

def appendQueryEntry (query : List Text) (explicit : List Text) (name : Text) (value : Json) :
    Except Error (List Text) :=
  match value with
  | .null | .array [] => .ok query
  | value =>
    if explicit.contains name || queryContains codec query name then
      .error (.framework .invalidArgument "duplicate_query_parameter"
        ("query_map conflicts with query parameter ".toList ++ name))
    else match value with
      | .array values => appendScalars codec query name values
      | value => appendScalar codec query name value

def appendQueryEntries (query : List Text) (explicit : List Text) :
    List (Text × Json) → Except Error (List Text)
  | [] => .ok query
  | (name, value) :: fields => do
    let query ← appendQueryEntry codec query explicit name value
    appendQueryEntries query explicit fields

def appendQueryMap (query : List Text) (value : Json) (explicit : List Text) :
    Except Error (List Text) :=
  match value with
  | .object fields => appendQueryEntries codec query explicit fields
  | .null => .ok query
  | _ => .error (.framework .invalidArgument "invalid_query_map"
      "query_map argument must serialize as a JSON object".toList)

end Query

/-! ## Headers -/

def boundHeaderName (name : Text) : Except Error HeaderName :=
  match HeaderName.fromBytes name with
  | some name => .ok name
  | none => .error (.framework .invalidArgument "invalid_header_parameter"
      "header argument name is not a valid HTTP header name".toList)

def insertBoundHeader (headers : HeaderMap) (name : Text) (value : Json) :
    Except Error HeaderMap := do
  let name ← boundHeaderName name
  if headers.containsKey name || isRuntimeOwnedHeader name then .error (headerConflict name)
  else
    let text ← scalarText value name.text
    match HeaderValue.fromStr text with
    | some v => .ok (headers.insert name v)
    | none => .error (.framework .invalidArgument "invalid_header_parameter"
        "header argument cannot be represented as an HTTP header value".toList)

/-- The loop over the values of one map entry. -/
def appendHeaderValues (headers : HeaderMap) (name : HeaderName) :
    List Json → Except Error HeaderMap
  | [] => .ok headers
  | value :: values => do
    let text ← scalarText value name.text
    match HeaderValue.fromStr text with
    | some v => appendHeaderValues (headers.append name v) name values
    | none => .error (.framework .invalidArgument "invalid_header_map"
        "header_map contains an invalid HTTP header value".toList)

def appendHeaderEntry (headers : HeaderMap) (explicit : List HeaderName) (name : Text)
    (value : Json) : Except Error HeaderMap :=
  match value with
  | .null | .array [] => .ok headers
  | value =>
    match HeaderName.fromBytes name with
    | none => .error (.framework .invalidArgument "invalid_header_map"
        "header_map contains an invalid HTTP header name".toList)
    | some name =>
      if explicit.contains name || headers.containsKey name || isRuntimeOwnedHeader name then
        .error (headerConflict name)
      else match value with
        | .array values => appendHeaderValues headers name values
        | value => appendHeaderValues headers name [value]

def appendHeaderEntries (headers : HeaderMap) (explicit : List HeaderName) :
    List (Text × Json) → Except Error HeaderMap
  | [] => .ok headers
  | (name, value) :: fields => do
    let headers ← appendHeaderEntry headers explicit name value
    appendHeaderEntries headers explicit fields

def appendHeaderMap (headers : HeaderMap) (value : Json) (explicit : List HeaderName) :
    Except Error HeaderMap :=
  match value with
  | .object fields => appendHeaderEntries headers explicit fields
  | .null => .ok headers
  | _ => .error (.framework .invalidArgument "invalid_header_map"
      "header_map argument must serialize as a JSON object".toList)

def rejectBindingOwnedHeaders (headers : HeaderMap) : Except Error Unit :=
  match runtimeOwned.find? headers.containsKey with
  | some name => .error (headerConflict name)
  | none => .ok ()

/-! ## The encoder -/

/-- The variables of the loop over the parameters. -/
structure EncodeState where
  path : Text
  query : List Text
  headers : HeaderMap
  cookies : List Text
  body : Option Json
  bodyFields : List (Text × Json)

def namesOf (source : HttpParameterSource) (parameters : List HttpParameter) : List Text :=
  (parameters.filter fun p => p.source = source).map HttpParameter.name

section Encode

variable (codec : PercentCodec)

/-- One turn of the loop. -/
def encodeParameter (explicitQuery : List Text) (explicitHeaders : List HeaderName)
    (s : EncodeState) (p : HttpParameter) (value : Json) : Except Error EncodeState :=
  match p.source with
  | .path => do
    let text ← scalarText value p.name
    .ok { s with path := replaceAll ('{' :: p.name ++ ['}']) (codec.encode text) s.path }
  | .query => do
    let query ← appendQuery codec s.query p.name p.cardinality value
    .ok { s with query := query }
  | .header =>
    match value with
    | .null => .ok s
    | value => do
      let headers ← insertBoundHeader s.headers p.name value
      .ok { s with headers := headers }
  | .cookie =>
    match value with
    | .null => .ok s
    | value => do
      let text ← cookieText value p.name
      .ok { s with cookies := s.cookies ++ [p.name ++ '=' :: text] }
  | .bodyField => .ok { s with bodyFields := SortedMap.insert p.name value s.bodyFields }
  | .body => .ok { s with body := some value }
  | .queryMap => do
    let query ← appendQueryMap codec s.query value explicitQuery
    .ok { s with query := query }
  | .headerMap => do
    let headers ← appendHeaderMap s.headers value explicitHeaders
    .ok { s with headers := headers }

def encodeParameters (explicitQuery : List Text) (explicitHeaders : List HeaderName)
    (arguments : Arguments) (s : EncodeState) : List HttpParameter → Except Error EncodeState
  | [] => .ok s
  | p :: rest => do
    let s ← encodeParameter codec explicitQuery explicitHeaders s p (arguments.value p.name)
    encodeParameters explicitQuery explicitHeaders arguments s rest

/-- What is checked before the loop; returns the names the Header parameters bind. -/
def checkCallHeaders (parameters : List HttpParameter) (headers : HeaderMap) :
    Except Error (List HeaderName) := do
  rejectBindingOwnedHeaders headers
  let explicitHeaders ← (namesOf .header parameters).mapM boundHeaderName
  match explicitHeaders.find? headers.containsKey with
  | some name => .error (headerConflict name)
  | none =>
    if (parameters.any fun p => p.source = .cookie) && headers.containsKey cookie then
      .error (headerConflict cookie)
    else .ok explicitHeaders

def joinText (separator : Text) : List Text → Text
  | [] => []
  | t :: ts => t ++ ts.flatMap (separator ++ ·)

def insertCookies (headers : HeaderMap) (cookies : List Text) : Except Error HeaderMap :=
  if cookies = [] then .ok headers
  else if headers.containsKey cookie then .error (headerConflict cookie)
  else match HeaderValue.fromStr (joinText "; ".toList cookies) with
    | some v => .ok (headers.insert cookie v)
    | none => .error (.framework .invalidArgument "invalid_cookie_parameter"
        "cookie argument cannot be represented as an HTTP Cookie header".toList)

def insertMediaType (headers : HeaderMap) (name : HeaderName) (mediaType : Text) (invalid : Error) :
    Except Error HeaderMap :=
  match HeaderValue.fromStr mediaType with
  | some v => .ok (headers.insert name v)
  | none => .error invalid

def invalidConsumes : Error :=
  .framework .invalidArgument "invalid_consumes_media_type"
    "request media type cannot be represented as Content-Type".toList

def invalidProduces : Error :=
  .framework .invalidArgument "invalid_produces_media_type"
    "response media type cannot be represented as Accept".toList

/-- Only a request with a body has a Content-Type. -/
def insertContentType (headers : HeaderMap) (body : List UInt8) (consumes : Text) :
    Except Error HeaderMap :=
  if body = [] then .ok headers else insertMediaType headers contentType consumes invalidConsumes

/-- `path?query`, or the path alone. -/
def joinQuery (path : Text) (query : List Text) : Text :=
  if query = [] then path else path ++ '?' :: joinText ['&'] query

def encodeJsonRequest (request : RequestEncoding) : Except Error EncodedRequest := do
  let op := request.operation
  let explicitQuery := namesOf .query op.parameters
  let explicitHeaders ← checkCallHeaders op.parameters request.headers
  let s ← encodeParameters codec explicitQuery explicitHeaders request.arguments
    ⟨op.path, [], request.headers, [], none, []⟩ op.parameters
  let value := if s.body.isNone && s.bodyFields ≠ [] then some (.object s.bodyFields) else s.body
  let headers ← insertCookies s.headers s.cookies
  let body := (value.map fun v => utf8 v.print).getD []
  let headers ← insertContentType headers body op.consumes
  let headers ← insertMediaType headers accept op.produces invalidProduces
  .ok ⟨op.method, joinQuery s.path s.query, headers, body⟩

end Encode

/-! ## What one parameter does -/

/-- The text of a scalar. -/
def scalarOf : Json → Option Text
  | .string value => some value
  | .bool value => some (if value then "true".toList else "false".toList)
  | .number text => some text
  | .null | .array _ | .object _ => none

theorem scalarText_eq_ok_iff (v : Json) (name text : Text) :
    scalarText v name = .ok text ↔ scalarOf v = some text := by
  cases v <;> simp [scalarText, scalarOf]

section Steps

variable {codec : PercentCodec} {explicitQuery : List Text} {explicitHeaders : List HeaderName}

/-- The turns of the loop that succeed, by the source of the parameter. -/
inductive EncodeStep (codec : PercentCodec) (explicitQuery : List Text)
    (explicitHeaders : List HeaderName) (s : EncodeState) (p : HttpParameter) (v : Json) :
    EncodeState → Prop
  | path (h : p.source = .path) {text : Text} (ht : scalarOf v = some text) :
    EncodeStep codec explicitQuery explicitHeaders s p v
      { s with path := replaceAll ('{' :: p.name ++ ['}']) (codec.encode text) s.path }
  | query (h : p.source = .query) {query : List Text}
    (hq : appendQuery codec s.query p.name p.cardinality v = .ok query) :
    EncodeStep codec explicitQuery explicitHeaders s p v { s with query := query }
  | nullHeader (h : p.source = .header) (hv : v = .null) :
    EncodeStep codec explicitQuery explicitHeaders s p v s
  | header (h : p.source = .header) (hv : v ≠ .null) {headers : HeaderMap}
    (hh : insertBoundHeader s.headers p.name v = .ok headers) :
    EncodeStep codec explicitQuery explicitHeaders s p v { s with headers := headers }
  | nullCookie (h : p.source = .cookie) (hv : v = .null) :
    EncodeStep codec explicitQuery explicitHeaders s p v s
  | cookie (h : p.source = .cookie) {text : Text} (ht : cookieText v p.name = .ok text) :
    EncodeStep codec explicitQuery explicitHeaders s p v
      { s with cookies := s.cookies ++ [p.name ++ '=' :: text] }
  | bodyField (h : p.source = .bodyField) :
    EncodeStep codec explicitQuery explicitHeaders s p v
      { s with bodyFields := SortedMap.insert p.name v s.bodyFields }
  | body (h : p.source = .body) :
    EncodeStep codec explicitQuery explicitHeaders s p v { s with body := some v }
  | queryMap (h : p.source = .queryMap) {query : List Text}
    (hq : appendQueryMap codec s.query v explicitQuery = .ok query) :
    EncodeStep codec explicitQuery explicitHeaders s p v { s with query := query }
  | headerMap (h : p.source = .headerMap) {headers : HeaderMap}
    (hh : appendHeaderMap s.headers v explicitHeaders = .ok headers) :
    EncodeStep codec explicitQuery explicitHeaders s p v { s with headers := headers }

theorem encodeParameter_step {s s' : EncodeState} {p : HttpParameter} {v : Json}
    (h : encodeParameter codec explicitQuery explicitHeaders s p v = .ok s') :
    EncodeStep codec explicitQuery explicitHeaders s p v s' := by
  unfold encodeParameter at h
  cases hp : p.source <;> simp only [hp] at h
  case path =>
    obtain ⟨text, ht, h⟩ := Except.bind_eq_ok_iff.mp h
    cases h
    exact .path hp ((scalarText_eq_ok_iff _ _ _).mp ht)
  case query =>
    obtain ⟨query, hq, h⟩ := Except.bind_eq_ok_iff.mp h
    cases h
    exact .query hp hq
  case header =>
    split at h
    · cases h
      exact .nullHeader hp rfl
    · rename_i hv
      obtain ⟨headers, hh, h⟩ := Except.bind_eq_ok_iff.mp h
      cases h
      exact .header hp hv hh
  case cookie =>
    split at h
    · cases h
      exact .nullCookie hp rfl
    · obtain ⟨text, ht, h⟩ := Except.bind_eq_ok_iff.mp h
      cases h
      exact .cookie hp ht
  case bodyField =>
    cases h
    exact .bodyField hp
  case body =>
    cases h
    exact .body hp
  case queryMap =>
    obtain ⟨query, hq, h⟩ := Except.bind_eq_ok_iff.mp h
    cases h
    exact .queryMap hp hq
  case headerMap =>
    obtain ⟨headers, hh, h⟩ := Except.bind_eq_ok_iff.mp h
    cases h
    exact .headerMap hp hh

/-- A property of the loop's variables that every turn keeps holds at the end; `I` may depend on
the parameters passed so far. -/
theorem encodeParameters_induction {arguments : Arguments} {I : List HttpParameter → EncodeState → Prop}
    (hstep : ∀ seen s p s', I seen s →
      EncodeStep codec explicitQuery explicitHeaders s p (arguments.value p.name) s' →
        I (seen ++ [p]) s')
    {seen ps : List HttpParameter} {s s' : EncodeState} (hs : I seen s)
    (h : encodeParameters codec explicitQuery explicitHeaders arguments s ps = .ok s') :
    I (seen ++ ps) s' := by
  induction ps generalizing seen s with
  | nil =>
    cases h
    simpa using hs
  | cons p ps ih =>
    unfold encodeParameters at h
    obtain ⟨s₁, h₁, h⟩ := Except.bind_eq_ok_iff.mp h
    have := ih (hstep seen s p s₁ hs (encodeParameter_step h₁)) h
    simpa using this

theorem encodeParameters_invariant {arguments : Arguments}
    {I : List HttpParameter → EncodeState → Prop}
    (hstep : ∀ seen s p s', I seen s →
      EncodeStep codec explicitQuery explicitHeaders s p (arguments.value p.name) s' →
        I (seen ++ [p]) s')
    {ps : List HttpParameter} {s s' : EncodeState} (hs : I [] s)
    (h : encodeParameters codec explicitQuery explicitHeaders arguments s ps = .ok s') : I ps s' :=
  encodeParameters_induction hstep hs h

end Steps

/-! ## What an encoding consists of -/

/-- The steps of a successful encoding. -/
structure Encoding (codec : PercentCodec) (request : RequestEncoding) (encoded : EncodedRequest)
    (explicitHeaders : List HeaderName) (s : EncodeState) : Prop where
  checked : checkCallHeaders request.operation.parameters request.headers = .ok explicitHeaders
  loop : encodeParameters codec (namesOf .query request.operation.parameters) explicitHeaders
    request.arguments ⟨request.operation.path, [], request.headers, [], none, []⟩
    request.operation.parameters = .ok s
  method : encoded.method = request.operation.method
  pathAndQuery : encoded.pathAndQuery = joinQuery s.path s.query
  body : encoded.body = ((if s.body.isNone && s.bodyFields ≠ [] then some (.object s.bodyFields)
    else s.body).map fun v => utf8 (Json.print v)).getD []
  headers : ∃ withCookies, insertCookies s.headers s.cookies = .ok withCookies ∧
    ∀ keep : HeaderName → Bool, (∀ name ∈ runtimeOwned, keep name = false) →
      (encoded.headers.entries.filter fun e => keep e.1) =
        withCookies.entries.filter fun e => keep e.1

theorem entries_insertMediaType {headers headers' : HeaderMap} {name : HeaderName} {text : Text}
    {e : Error} (h : insertMediaType headers name text e = .ok headers') {keep : HeaderName → Bool}
    (hn : keep name = false) :
    (headers'.entries.filter fun e => keep e.1) = headers.entries.filter fun e => keep e.1 := by
  unfold insertMediaType at h
  split at h
  · cases h
    exact headers.filter_insert name _ hn
  · cases h

theorem entries_insertContentType {headers headers' : HeaderMap} {body : List UInt8}
    {consumes : Text} (h : insertContentType headers body consumes = .ok headers')
    {keep : HeaderName → Bool} (hn : keep contentType = false) :
    (headers'.entries.filter fun e => keep e.1) = headers.entries.filter fun e => keep e.1 := by
  unfold insertContentType at h
  split at h
  · cases h
    rfl
  · exact entries_insertMediaType h hn

theorem encodeJsonRequest_encoding {codec : PercentCodec} {request : RequestEncoding}
    {encoded : EncodedRequest} (h : encodeJsonRequest codec request = .ok encoded) :
    ∃ explicitHeaders s, Encoding codec request encoded explicitHeaders s := by
  unfold encodeJsonRequest at h
  obtain ⟨explicitHeaders, hchecked, h⟩ := Except.bind_eq_ok_iff.mp h
  obtain ⟨s, hloop, h⟩ := Except.bind_eq_ok_iff.mp h
  obtain ⟨withCookies, hcookies, h⟩ := Except.bind_eq_ok_iff.mp h
  obtain ⟨withType, htype, h⟩ := Except.bind_eq_ok_iff.mp h
  obtain ⟨headers, haccept, h⟩ := Except.bind_eq_ok_iff.mp h
  cases h
  refine ⟨explicitHeaders, s, hchecked, hloop, rfl, rfl, rfl, withCookies, hcookies, ?_⟩
  intro keep hkeep
  rw [entries_insertMediaType haccept (hkeep accept (by decide)),
    entries_insertContentType htype (hkeep contentType (by decide))]

end Fusen.Wire
