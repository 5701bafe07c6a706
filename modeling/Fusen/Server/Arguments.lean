import Fusen.Server.Routes
import Fusen.Wire.Request

/-!
# Argument decoding (`server/routes.rs`)

`httpArguments` reads the arguments of a matched route from the query, the headers
and the body of a request.  Where the source collects into a hash map, the model
keeps the entries in the order of their first key.
-/

namespace Fusen.Server

open Lib Contract Wire

/-! ## Forms -/

/-- `form_urlencoded::parse`: empty sequences are skipped, a missing `=` leaves the value empty. -/
def formParse (codec : PercentCodec) (query : Text) : List (Text × Text) :=
  ((query.splitOn '&').filter (· ≠ [])).map fun sequence =>
    let pair := (splitOnce '=' sequence).getD (sequence, [])
    (codec.formDecode pair.1, codec.formDecode pair.2)

def tooManyQueryPairs : Error :=
  .framework .invalidArgument "too_many_query_pairs" "request query contains too many pairs".toList

def queryValues (codec : PercentCodec) (query : Option Text) (maxQueryPairs : Nat) :
    Except Error (List (Text × List Text)) :=
  let pairs := formParse codec (query.getD [])
  if maxQueryPairs < pairs.length then .error tooManyQueryPairs else .ok (Assoc.group pairs)

/-- One text, or the array of several. -/
def textsValue : List Text → Json
  | [text] => .string text
  | texts => .array (texts.map .string)

/-! ## Headers and cookies -/

def headerText (error : Error) (v : HeaderValue) : Except Error Text :=
  match v.toStr with
  | some text => .ok text
  | none => .error error

/-- `get_all` on a name given as text, which need not be a header name. -/
def getAllNamed (headers : HeaderMap) (name : Text) : List HeaderValue :=
  match HeaderName.fromBytes name with
  | some name => headers.getAll name
  | none => []

def headerValue (headers : HeaderMap) (name : Text) : Except Error Json := do
  let values ← (getAllNamed headers name).mapM (headerText (.framework .invalidArgument
    "invalid_header_parameter"
    ("HTTP header parameter ".toList ++ name ++ " is not valid text".toList)))
  match values with
  | [] => .ok .null
  | [value] => .ok (.string value)
  | _ => .error (.framework .invalidArgument "duplicate_header_parameter"
      ("scalar HTTP header parameter ".toList ++ name ++ " must appear at most once".toList))

def trim (s : Text) : Text := (s.dropWhile isWhitespace).rdropWhile isWhitespace

/-- The loop over the pairs of one Cookie header. -/
def parseCookiePairs (cookies : List (Text × Text)) : List Text → Except Error (List (Text × Text))
  | [] => .ok cookies
  | pair :: rest =>
    match splitOnce '=' (trim pair) with
    | none => .error (.framework .invalidArgument "invalid_cookie_header"
        "Cookie header contains an invalid pair".toList)
    | some (name, value) =>
      if (Assoc.get cookies name).isSome then
        .error (.framework .invalidArgument "duplicate_cookie_parameter"
          ("cookie ".toList ++ name ++ " must appear at most once".toList))
      else parseCookiePairs (cookies ++ [(name, value)]) rest

def parseCookieHeaders (cookies : List (Text × Text)) :
    List HeaderValue → Except Error (List (Text × Text))
  | [] => .ok cookies
  | header :: rest => do
    let text ← headerText (.framework .invalidArgument "invalid_cookie_header"
      "Cookie header is not valid text".toList) header
    let cookies ← parseCookiePairs cookies (text.splitOn ';')
    parseCookieHeaders cookies rest

def parseCookies (headers : HeaderMap) : Except Error (List (Text × Text)) :=
  parseCookieHeaders [] (headers.getAll cookie)

/-! ## Maps -/

def queryMap (values : List (Text × List Text)) (explicit : List Text) : List (Text × Json) :=
  (values.filter fun e => !explicit.contains e.1).map fun e => (e.1, textsValue e.2)

/-- The headers of a map argument, as text. -/
def headerMapTexts (explicit : List Text) :
    List (HeaderName × HeaderValue) → Except Error (List (Text × Text))
  | [] => .ok []
  | (name, value) :: rest =>
    if explicit.contains name.text || name = cookie then headerMapTexts explicit rest
    else do
      let text ← headerText (.framework .invalidArgument "invalid_header_map"
        "header_map contains a non-text header value".toList) value
      let rest ← headerMapTexts explicit rest
      .ok ((name.text, text) :: rest)

def headerMap (headers : HeaderMap) (explicit : List Text) : Except Error (List (Text × Json)) := do
  let texts ← headerMapTexts explicit headers.entries
  .ok ((Assoc.group texts).map fun e => (e.1, textsValue e.2))

/-! ## Arguments -/

/-- What the loop over the parameters reads, computed before it. -/
structure RequestParts where
  pathArguments : List (Text × Text)
  headers : HeaderMap
  cookies : List (Text × Text)
  body : Option Json
  explicitQuery : List Text
  explicitHeaders : List Text

def textOrNull (value : Option Text) : Json := (value.map Json.string).getD .null

def decodeQuery (p : HttpParameter) (values : List Text) : Except Error Json :=
  match p.cardinality with
  | .scalar =>
    match values with
    | [] => .ok .null
    | [value] => .ok (.string value)
    | _ => .error (.framework .invalidArgument "duplicate_query_parameter"
        ("scalar query parameter ".toList ++ p.name ++ " must appear at most once".toList))
  | .repeated => .ok (.array (values.map .string))

def decodeBodyField (body : Option Json) (name : Text) : Except Error Json :=
  match body with
  | some (.object fields) => .ok ((Assoc.get fields name).getD .null)
  | some _ => .error (.framework .invalidArgument "invalid_json_body"
      "request body must be a JSON object".toList)
  | none => .ok .null

/-- The value of one parameter; `values` are the query values not taken yet. -/
def decodeParameter (parts : RequestParts) (values : List (Text × List Text)) (p : HttpParameter) :
    Except Error Json :=
  match p.source with
  | .path => .ok (textOrNull (Assoc.get parts.pathArguments p.name))
  | .query => decodeQuery p ((Assoc.get values p.name).getD [])
  | .header => headerValue parts.headers p.name
  | .cookie => .ok (textOrNull (Assoc.get parts.cookies p.name))
  | .bodyField => decodeBodyField parts.body p.name
  | .body => .ok (parts.body.getD .null)
  | .queryMap => .ok (.object (queryMap values parts.explicitQuery))
  | .headerMap => do
    let fields ← headerMap parts.headers parts.explicitHeaders
    .ok (.object fields)

/-- A Query parameter takes its values out of the map. -/
def remainingValues (values : List (Text × List Text)) (p : HttpParameter) :
    List (Text × List Text) :=
  if p.source = .query then values.filter fun e => e.1 ≠ p.name else values

def decodeParameters (parts : RequestParts) (values : List (Text × List Text))
    (arguments : Arguments) : List HttpParameter → Except Error Arguments
  | [] => .ok arguments
  | p :: rest => do
    let value ← decodeParameter parts values p
    decodeParameters parts (remainingValues values p)
      (Assoc.upsert p.name (fun _ => value) arguments) rest

namespace MatchedRoute

def requestParts (m : MatchedRoute) (headers : HeaderMap) (cookies : List (Text × Text))
    (body : Option Json) : RequestParts where
  pathArguments := m.pathArguments
  headers := headers
  cookies := cookies
  body := body
  explicitQuery := namesOf .query m.route.operation.parameters
  explicitHeaders :=
    (namesOf .header m.route.operation.parameters).map fun name => name.map Char.toLower

def httpArguments (codec : PercentCodec) (m : MatchedRoute) (query : Option Text)
    (headers : HeaderMap) (body : Option Json) (maxQueryPairs : Nat) : Except Error Arguments := do
  let values ← queryValues codec query maxQueryPairs
  let cookies ← parseCookies headers
  decodeParameters (m.requestParts headers cookies body) values [] m.route.operation.parameters

def hasBody (m : MatchedRoute) : Bool :=
  m.route.operation.parameters.any fun p => p.source = .body || p.source = .bodyField

end MatchedRoute

/-! ## What cookies and header maps are read as -/

theorem headerText_eq_ok_iff {error : Error} {v : HeaderValue} {text : Text} :
    headerText error v = .ok text ↔ v.toStr = some text := by
  unfold headerText
  cases v.toStr <;> simp

theorem headerValue_eq_ok_iff {headers : HeaderMap} {name : Text} {json : Json} :
    headerValue headers name = .ok json ↔
      (getAllNamed headers name = [] ∧ json = .null) ∨
      ∃ v text, getAllNamed headers name = [v] ∧ v.toStr = some text ∧ json = .string text := by
  unfold headerValue
  rw [Except.bind_eq_ok_iff]
  constructor
  · rintro ⟨texts, htexts, h⟩
    have hall := Except.mapM_eq_ok_iff.mp htexts
    split at h
    · cases h
      rw [List.forall₂_nil_right_iff] at hall
      exact .inl ⟨hall, rfl⟩
    · cases h
      obtain ⟨v, rest, hv, hrest, hl⟩ := List.forall₂_cons_right_iff.mp hall
      rw [List.forall₂_nil_right_iff] at hrest
      rw [hrest] at hl
      exact .inr ⟨v, _, hl, (headerText_eq_ok_iff).mp hv, rfl⟩
    · cases h
  · rintro (⟨hnil, rfl⟩ | ⟨v, text, hone, hv, rfl⟩)
    · rw [hnil]
      exact ⟨[], rfl, rfl⟩
    · rw [hone]
      refine ⟨[text], Except.mapM_eq_ok_iff.mpr (.cons ((headerText_eq_ok_iff).mpr hv) .nil), rfl⟩

/-- A piece of a Cookie header is read as this name and value. -/
def CookiePiece (piece : Text) (e : Text × Text) : Prop :=
  trim piece = e.1 ++ '=' :: e.2 ∧ '=' ∉ e.1

theorem parseCookiePairs_eq_ok_iff {cookies out : List (Text × Text)} {pieces : List Text}
    (hnd : (cookies.map Prod.fst).Nodup) : parseCookiePairs cookies pieces = .ok out ↔
      ∃ pairs, List.Forall₂ CookiePiece pieces pairs ∧ out = cookies ++ pairs ∧
        (out.map Prod.fst).Nodup := by
  induction pieces generalizing cookies with
  | nil =>
    simp only [parseCookiePairs, List.forall₂_nil_left_iff, Except.ok.injEq]
    constructor
    · rintro rfl
      exact ⟨[], rfl, by simp, hnd⟩
    · rintro ⟨_, rfl, rfl, -⟩
      simp
  | cons piece pieces ih =>
    unfold parseCookiePairs
    constructor
    · intro h
      split at h
      · cases h
      · rename_i name value hsplit
        rw [splitOnce_eq_some_iff] at hsplit
        split at h
        · cases h
        · rename_i hfresh
          rw [Bool.not_eq_true, Option.isSome_eq_false_iff, Option.isNone_iff_eq_none] at hfresh
          have hnd' := (Assoc.nodup_keys_concat_iff (e := (name, value))).mpr ⟨hnd, hfresh⟩
          obtain ⟨pairs, hall, rfl, hout⟩ := (ih hnd').mp h
          exact ⟨(name, value) :: pairs, .cons hsplit hall, by simp, hout⟩
    · rintro ⟨pairs, hall, rfl, hout⟩
      cases hall with
      | @cons _ e _ pairs hpiece hall =>
        obtain ⟨name, value⟩ := e
        have hsplit : splitOnce '=' (trim piece) = some (name, value) :=
          splitOnce_eq_some_iff.mpr hpiece
        have hnd' : ((cookies ++ [(name, value)]).map Prod.fst).Nodup :=
          Assoc.nodup_keys_left (m := pairs) (by simpa using hout)
        have hfresh := (Assoc.nodup_keys_concat_iff.mp hnd').2
        rw [hsplit]
        simp only [hfresh, Option.isSome_none, Bool.false_eq_true, if_false]
        exact (ih hnd').mpr ⟨pairs, hall, by simp, hout⟩

/-- **What the Cookie headers of a request are read as.** -/
theorem parseCookieHeaders_eq_ok_iff {cookies out : List (Text × Text)} {values : List HeaderValue}
    (hnd : (cookies.map Prod.fst).Nodup) : parseCookieHeaders cookies values = .ok out ↔
      ∃ (texts : List Text) (pairs : List (Text × Text)), values.map HeaderValue.toStr = texts.map some ∧
        List.Forall₂ CookiePiece (texts.flatMap (List.splitOn ';')) pairs ∧
        out = cookies ++ pairs ∧ (out.map Prod.fst).Nodup := by
  induction values generalizing cookies with
  | nil =>
    simp only [parseCookieHeaders, List.map_nil, Except.ok.injEq]
    constructor
    · rintro rfl
      exact ⟨[], [], rfl, .nil, by simp, hnd⟩
    · rintro ⟨texts, pairs, htexts, hall, rfl, -⟩
      rw [List.map_eq_nil_iff.mp htexts.symm] at hall
      cases hall
      simp
  | cons v values ih =>
    unfold parseCookieHeaders
    rw [Except.bind_eq_ok_iff]
    constructor
    · rintro ⟨text, htext, h⟩
      have hv := (headerText_eq_ok_iff).mp htext
      obtain ⟨cookies', hpairs, h⟩ := Except.bind_eq_ok_iff.mp h
      obtain ⟨pairs, hall, rfl, hnd'⟩ := (parseCookiePairs_eq_ok_iff hnd).mp hpairs
      obtain ⟨texts, rest, htexts, hrest, rfl, hout⟩ := (ih hnd').mp h
      refine ⟨text :: texts, pairs ++ rest, by simp [hv, htexts], ?_, by simp, hout⟩
      rw [List.flatMap_cons]
      exact List.rel_append hall hrest
    · rintro ⟨texts, pairs, htexts, hall, rfl, hout⟩
      cases texts with
      | nil => cases htexts
      | cons text texts =>
        rw [List.map_cons, List.map_cons, List.cons.injEq] at htexts
        rw [List.flatMap_cons] at hall
        obtain ⟨first, rest, hfirst, hrest, rfl⟩ := forall₂_append_left_iff.mp hall
        have hsub : ((cookies ++ first).map Prod.fst).Nodup :=
          Assoc.nodup_keys_left (m := rest) (by simpa using hout)
        refine ⟨text, (headerText_eq_ok_iff).mpr htexts.1, ?_⟩
        rw [Except.bind_eq_ok_iff]
        refine ⟨cookies ++ first, (parseCookiePairs_eq_ok_iff hnd).mpr ⟨first, hfirst, rfl, hsub⟩, ?_⟩
        exact (ih hsub).mpr ⟨texts, rest, htexts.2, hrest, by simp, hout⟩

/-- Whether a header becomes an entry of a map argument. -/
def isMapHeader (explicit : List Text) (name : HeaderName) : Bool :=
  !explicit.contains name.text && name ≠ cookie

theorem headerMapTexts_eq_ok_iff {explicit : List Text} {entries : List (HeaderName × HeaderValue)}
    {texts : List (Text × Text)} : headerMapTexts explicit entries = .ok texts ↔
      List.Forall₂ (fun e t => t.1 = e.1.text ∧ e.2.toStr = some t.2)
        (entries.filter fun e => isMapHeader explicit e.1) texts := by
  induction entries generalizing texts with
  | nil => simp [headerMapTexts, eq_comm]
  | cons e entries ih =>
    obtain ⟨name, v⟩ := e
    unfold headerMapTexts
    by_cases hskip : explicit.contains name.text || name = cookie
    · have hkeep : isMapHeader explicit name = false := by
        rcases Bool.or_eq_true_iff.mp hskip with h | h
        · simp [isMapHeader, List.contains_iff_mem.mp h]
        · simp [isMapHeader, of_decide_eq_true h]
      rw [if_pos hskip, List.filter_cons_of_neg (by simp [hkeep]), ih]
    · have hkeep : isMapHeader explicit name = true := by
        simpa [isMapHeader] using hskip
      rw [if_neg hskip, List.filter_cons_of_pos (by simp [hkeep]), Except.bind_eq_ok_iff,
        List.forall₂_cons_left_iff]
      constructor
      · rintro ⟨text, htext, h⟩
        obtain ⟨rest, hrest, h⟩ := Except.bind_eq_ok_iff.mp h
        cases h
        exact ⟨(name.text, text), rest, ⟨rfl, (headerText_eq_ok_iff).mp htext⟩, ih.mp hrest, rfl⟩
      · rintro ⟨⟨n, text⟩, rest, ⟨rfl, htext⟩, hrest, rfl⟩
        refine ⟨text, (headerText_eq_ok_iff).mpr htext, ?_⟩
        rw [Except.bind_eq_ok_iff]
        exact ⟨rest, ih.mpr hrest, rfl⟩

/-! ## The loop over the parameters -/

/-- Taking values out changes no other Query parameter, and no map. -/
theorem decodeParameter_remaining {parts : RequestParts} {values : List (Text × List Text)}
    {p q : HttpParameter} (hne : p.name ≠ q.name)
    (hexp : p.source = .query → p.name ∈ parts.explicitQuery) :
    decodeParameter parts (remainingValues values p) q = decodeParameter parts values q := by
  unfold remainingValues
  split
  · rename_i hp
    unfold decodeParameter
    cases q.source with
    | query =>
      have hget := Assoc.get_filter_key (fun k => k ≠ p.name) values q.name
      simp only [decide_not, ne_eq] at hget ⊢
      simp only [hget, Ne.symm hne]
      simp
    | queryMap =>
      have hfilter : queryMap (values.filter fun e => e.1 ≠ p.name) parts.explicitQuery =
          queryMap values parts.explicitQuery := by
        unfold queryMap
        rw [List.filter_filter]
        congr 1
        apply List.filter_congr
        rintro ⟨k, v⟩ -
        by_cases hk : k = p.name
        · simp [hk, hexp hp]
        · simp [hk]
      simp only [hfilter]
    | path | header | cookie | bodyField | body | headerMap => rfl
  · rfl

/-- The value a parameter decodes to, when it does. -/
def decoded (parts : RequestParts) (values : List (Text × List Text)) (p : HttpParameter) : Json :=
  (decodeParameter parts values p).toOption.getD .null

theorem decoded_of_eq_ok {parts : RequestParts} {values : List (Text × List Text)}
    {p : HttpParameter} {v : Json} (h : decodeParameter parts values p = .ok v) :
    decoded parts values p = v := by
  rw [decoded, h]
  rfl

/-- **The loop decodes each parameter by itself.** -/
theorem decodeParameters_eq_ok_iff {parts : RequestParts} {values : List (Text × List Text)}
    {ps : List HttpParameter} (hnd : (ps.map HttpParameter.name).Nodup)
    (hexp : ∀ p ∈ ps, p.source = .query → p.name ∈ parts.explicitQuery)
    {arguments out : Arguments} (hfresh : ∀ p ∈ ps, p.name ∉ arguments.map Prod.fst) :
    decodeParameters parts values arguments ps = .ok out ↔
      (∀ p ∈ ps, ∃ v, decodeParameter parts values p = .ok v) ∧
      out = arguments ++ ps.map fun p => (p.name, decoded parts values p) := by
  induction ps generalizing values arguments with
  | nil => simp [decodeParameters, eq_comm]
  | cons p ps ih =>
    rw [List.map_cons, List.nodup_cons] at hnd
    rw [List.forall_mem_cons] at hexp hfresh
    have hne : ∀ q ∈ ps, p.name ≠ q.name := fun q hq he => hnd.1 (he ▸ List.mem_map_of_mem hq)
    have hrest : ∀ q ∈ ps, decodeParameter parts (remainingValues values p) q =
        decodeParameter parts values q := fun q hq => decodeParameter_remaining (hne q hq) hexp.1
    have hvalues : (ps.map fun q => (q.name, decoded parts (remainingValues values p) q)) =
        ps.map fun q => (q.name, decoded parts values q) := by
      apply List.map_congr_left
      intro q hq
      rw [decoded, hrest q hq, decoded]
    unfold decodeParameters
    rw [Except.bind_eq_ok_iff]
    have hstep : ∀ v, decodeParameters parts (remainingValues values p)
        (Assoc.upsert p.name (fun _ => v) arguments) ps = .ok out ↔
        (∀ q ∈ ps, ∃ v, decodeParameter parts values q = .ok v) ∧
          out = arguments ++ (p.name, v) :: ps.map fun q => (q.name, decoded parts values q) := by
      intro v
      rw [Assoc.upsert_of_notMem hfresh.1, ih hnd.2 hexp.2, hvalues, List.append_assoc,
        List.singleton_append]
      · apply and_congr_left
        rintro -
        constructor
        · intro h q hq
          rw [← hrest q hq]
          exact h q hq
        · intro h q hq
          rw [hrest q hq]
          exact h q hq
      · intro q hq
        rw [List.map_append, List.mem_append, not_or]
        refine ⟨hfresh.2 q hq, ?_⟩
        simpa using (hne q hq).symm
    constructor
    · rintro ⟨v, hv, h⟩
      obtain ⟨hok, rfl⟩ := (hstep v).mp h
      rw [List.forall_mem_cons, List.map_cons, decoded_of_eq_ok hv]
      exact ⟨⟨⟨v, hv⟩, hok⟩, rfl⟩
    · rintro ⟨hok, hout⟩
      obtain ⟨⟨v, hv⟩, hok⟩ := List.forall_mem_cons.mp hok
      rw [List.map_cons, decoded_of_eq_ok hv] at hout
      exact ⟨v, hv, (hstep v).mpr ⟨hok, hout⟩⟩

namespace MatchedRoute

variable {codec : PercentCodec} {m : MatchedRoute} {query : Option Text} {headers : HeaderMap}
  {body : Option Json} {maxQueryPairs : Nat}

/-- **What `httpArguments` decodes.**  It succeeds iff the query stays within its limit, the
cookies parse and every parameter decodes; then it lists these values. -/
theorem httpArguments_eq_ok_iff (out : Arguments) :
    m.httpArguments codec query headers body maxQueryPairs = .ok out ↔
      (formParse codec (query.getD [])).length ≤ maxQueryPairs ∧
      ∃ cookies, parseCookies headers = .ok cookies ∧
        (∀ p ∈ m.route.operation.parameters, ∃ v, decodeParameter
          (m.requestParts headers cookies body) (Assoc.group (formParse codec (query.getD []))) p =
            .ok v) ∧
        out = m.route.operation.parameters.map fun p => (p.name,
          decoded (m.requestParts headers cookies body)
            (Assoc.group (formParse codec (query.getD []))) p) := by
  have hloop : ∀ cookies, decodeParameters (m.requestParts headers cookies body)
      (Assoc.group (formParse codec (query.getD []))) [] m.route.operation.parameters = .ok out ↔
      _ := fun cookies => decodeParameters_eq_ok_iff m.route.operation.names_nodup
        (fun p hp hs => List.mem_map_of_mem (List.mem_filter.mpr ⟨hp, by simpa using hs⟩))
        (fun _ _ => by simp)
  unfold httpArguments queryValues
  rw [Except.bind_eq_ok_iff]
  constructor
  · rintro ⟨values, hvalues, h⟩
    simp only at hvalues
    split at hvalues
    · cases hvalues
    · rename_i hle
      cases hvalues
      obtain ⟨cookies, hcookies, h⟩ := Except.bind_eq_ok_iff.mp h
      obtain ⟨hok, hout⟩ := (hloop cookies).mp h
      exact ⟨by omega, cookies, hcookies, hok, by simpa using hout⟩
  · rintro ⟨hle, cookies, hcookies, hok, hout⟩
    refine ⟨_, if_neg (by omega), ?_⟩
    rw [Except.bind_eq_ok_iff]
    exact ⟨cookies, hcookies, (hloop cookies).mpr ⟨hok, by simpa using hout⟩⟩

/-- Reading one parameter's value out of the decoded arguments. -/
theorem get_decoded {p : HttpParameter} (hp : p ∈ m.route.operation.parameters)
    (f : HttpParameter → Json) :
    Assoc.get (m.route.operation.parameters.map fun p => (p.name, f p)) p.name = some (f p) := by
  apply Assoc.get_of_mem
  · rw [List.map_map]
    exact m.route.operation.names_nodup
  · exact List.mem_map.mpr ⟨p, hp, rfl⟩

end MatchedRoute

end Fusen.Server
