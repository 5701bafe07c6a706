import Fusen.Binding.HeaderRoundTrip

/-!
# Isolation of declared parameters from map arguments

Two requests that differ in the contents of their maps alone write the same path, the
same declared query pairs and the same declared headers.  What is left is the pair
limit, the text check of the server, and the `cookie` header, which a HeaderMap may
supply when every Cookie argument is `null`: `isolation_iff`.
-/

namespace Fusen.Binding

open Lib Contract Wire Server

/-- The server's route and arguments of a request. -/
def readRequest (codec : PercentCodec) (table : RouteTable) (encoded : EncodedRequest)
    (body : Option Json) (maxQueryPairs : Nat) : Except Error Arguments := do
  let m ← table.matchHttp codec encoded.method (uriPath encoded.pathAndQuery)
  m.httpArguments codec (uriQuery encoded.pathAndQuery) (applicationHeaders encoded.headers) body
    maxQueryPairs

/-! ## Which requests the server can read -/

/-- What the server needs to read an encoded request at all. -/
structure RequestReadable (request : RequestEncoding) (maxQueryPairs : Nat) : Prop where
  path : ∀ p ∈ request.operation.parameters, p.source = .path →
    scalarOf (request.arguments.value p.name) ≠ some []
  query : (request.operation.parameters.flatMap (parameterPairs request.arguments)).length ≤
    maxQueryPairs
  header : ∀ p ∈ request.operation.parameters, p.source = .header → ∀ text,
    scalarOf (request.arguments.value p.name) = some text →
      HeaderName.fromBytes p.name ≠ some keepAlive → text.all isVisibleChar = true
  cookies : CookieListFits (suppliedCookies request) []
  headerMap : ∀ p ∈ request.operation.parameters, p.source = .headerMap →
    (∀ e ∈ fieldsOf (request.arguments.value p.name), textsOf e.2 ≠ [] →
      HeaderName.fromBytes e.1 ≠ some cookie → HeaderName.fromBytes e.1 ≠ some keepAlive →
        ∀ text ∈ textsOf e.2, text.all isVisibleChar = true) ∧
    ∀ e ∈ request.headers.entries, e.1 ≠ cookie → e.1 ≠ keepAlive →
      ∃ text, e.2.toStr = some text

namespace Received

variable {request : RequestEncoding} {explicit : List HeaderName} {written received : HeaderMap}

theorem headersRead_iff (h : Received request explicit written received) :
    (∀ p ∈ request.operation.parameters, p.source = .header →
      ∃ v, headerValue received p.name = .ok v) ↔
    ∀ p ∈ request.operation.parameters, p.source = .header → ∀ text,
      scalarOf (request.arguments.value p.name) = some text →
        HeaderName.fromBytes p.name ≠ some keepAlive → text.all isVisibleChar = true := by
  constructor
  · intro hread p hp hsrc text ht hka
    obtain ⟨n, -, hn⟩ := h.named p hp hsrc
    obtain ⟨howned, w, hw, hwritten⟩ := h.written_scalar hp hsrc ht hn
    rw [hn, ne_eq, Option.some.injEq] at hka
    have happ := (isApplicationHeader_iff n).mpr ⟨howned, hka⟩
    obtain ⟨v, hv⟩ := hread p hp hsrc
    rw [headerValue_eq_ok_iff, getAllNamed, hn] at hv
    simp only [h.getAll_of_written happ (by simp [hwritten] : written.getAll n ≠ []), hwritten] at hv
    by_contra hvis
    simp [hvis, HeaderValue.toStr_fromStr hw] at hv
  · intro hvis p hp hsrc
    obtain ⟨n, hexp, hn⟩ := h.named p hp hsrc
    have hgoal : received.getAll n = [] ∨ ∃ v text, received.getAll n = [v] ∧ v.toStr = some text := by
      by_cases happ : isApplicationHeader n = true
      swap
      · exact .inl (h.getAll_of_not_application (by simpa using happ))
      by_cases hall : ∀ q ∈ request.operation.parameters, q.source = .header →
          HeaderName.fromBytes q.name = some n → request.arguments.value q.name = .null
      · have hwritten := h.written_null hexp hall
        by_cases hne : n = cookie
        · subst hne
          rcases h.getAll_cookie with ⟨-, heq⟩ | ⟨hcookies, -, v, hone, hv⟩
          · exact .inl (heq.trans hwritten)
          · have hparse := parseCookies_joined h.cookiePairsFit hcookies hv
            obtain ⟨texts, -, htexts, -⟩ := (parseCookieHeaders_eq_ok_iff (by simp)).mp hparse
            obtain ⟨text, -, ht⟩ := List.mem_map.mp (htexts ▸ List.mem_map_of_mem
              (List.mem_singleton_self v))
            exact .inr ⟨v, text, hone, ht.symm⟩
        · exact .inl ((h.getAll_of_ne_cookie happ hne).trans hwritten)
      · simp only [not_forall] at hall
        obtain ⟨q, hq, hqs, hname, hv⟩ := hall
        obtain ⟨text, ht⟩ := ((h.fits q hq).header hqs).resolve_left hv
        obtain ⟨-, w, hw, hwritten⟩ := h.written_scalar hq hqs ht hname
        have hka : HeaderName.fromBytes q.name ≠ some keepAlive := by
          rw [hname, ne_eq, Option.some.injEq]
          exact ((isApplicationHeader_iff n).mp happ).2
        refine .inr ⟨w, text, ?_, ?_⟩
        · rw [h.getAll_of_written happ (by simp [hwritten]), hwritten]
        · rw [HeaderValue.toStr_fromStr hw, if_pos (hvis q hq hqs text ht hka)]
    have hnamed : getAllNamed received p.name = received.getAll n := by
      rw [getAllNamed, hn]
    rcases hgoal with hnil | ⟨v, text, hone, ht⟩
    · exact ⟨.null, headerValue_eq_ok_iff.mpr (.inl ⟨hnamed.trans hnil, rfl⟩)⟩
    · exact ⟨.string text, headerValue_eq_ok_iff.mpr
        (.inr ⟨v, text, hnamed.trans hone, ht, rfl⟩)⟩

theorem cookiesRead_iff (h : Received request explicit written received) :
    (∃ cookies, parseCookies received = .ok cookies) ↔
      CookieListFits (suppliedCookies request) [] := by
  rw [cookieListFits_iff, suppliedCookies, ← h.writes.getAll, parseCookies]
  rcases h.getAll_cookie with ⟨-, heq⟩ | ⟨hne, hwritten, v, hone, hv⟩
  · simp [heq]
  · rw [hwritten, hone]
    exact iff_of_true ⟨_, parseCookies_joined h.cookiePairsFit hne hv⟩ ⟨[], rfl, by simp⟩

end Received

section Read

variable {codec : PercentCodec} {request : RequestEncoding} {encoded : EncodedRequest}
  {route : Route} {table : RouteTable} {maxQueryPairs : Nat}

/-- What the parameters of an encoded request are read from. -/
def receivedParts (request : RequestEncoding) (received : HeaderMap)
    (cookies : List (Text × Text)) : RequestParts where
  pathArguments := request.operation.placeholders.map fun name =>
    (name, (boundText request.arguments request.operation.parameters name).getD [])
  headers := received
  cookies := cookies
  body := sentBody request
  explicitQuery := namesOf .query request.operation.parameters
  explicitHeaders := Received.explicitTexts request

/-- The query values of an encoded request. -/
def receivedValues (request : RequestEncoding) : List (Text × List Text) :=
  Assoc.group (request.operation.parameters.flatMap (parameterPairs request.arguments))

/-- **What the server reads from an encoded request.** -/
theorem readRequest_eq_ok_iff (henc : encodeJsonRequest codec request = .ok encoded)
    (hop : route.operation = request.operation)
    (hbuild : RouteTable.build codec [route] = .ok table) (out : Arguments) :
    readRequest codec table encoded (sentBody request) maxQueryPairs = .ok out ↔
      (∀ p ∈ request.operation.parameters, p.source = .path →
        scalarOf (request.arguments.value p.name) ≠ some []) ∧
      (request.operation.parameters.flatMap (parameterPairs request.arguments)).length ≤
        maxQueryPairs ∧
      ∃ cookies, parseCookies (applicationHeaders encoded.headers) = .ok cookies ∧
        (∀ p ∈ request.operation.parameters, ∃ v, decodeParameter
          (receivedParts request (applicationHeaders encoded.headers) cookies)
          (receivedValues request) p = .ok v) ∧
        out = request.operation.parameters.map fun p => (p.name, decoded
          (receivedParts request (applicationHeaders encoded.headers) cookies)
          (receivedValues request) p) := by
  obtain ⟨explicit, s, h⟩ := encodeJsonRequest_encoding henc
  obtain ⟨-, hparse⟩ := query_of_encoding h
  have hall := (path_of_loop h.loop rfl).2
  have hparts : ∀ cookies, MatchedRoute.requestParts ⟨route, request.operation.placeholders.map
      fun name => (name, (boundText request.arguments request.operation.parameters name).getD [])⟩
      (applicationHeaders encoded.headers) cookies (sentBody request) =
        receivedParts request (applicationHeaders encoded.headers) cookies := by
    intro cookies
    unfold MatchedRoute.requestParts receivedParts Received.explicitTexts
    rw [hop]
  unfold readRequest
  rw [Except.bind_eq_ok_iff, uriPath_of_encoding h, h.method]
  by_cases hne : ∀ p ∈ request.operation.parameters, p.source = .path →
      scalarOf (request.arguments.value p.name) ≠ some []
  · rw [matchHttp_of_texts hop hbuild hall hne]
    simp only [Except.ok.injEq, exists_eq_left', MatchedRoute.httpArguments_eq_ok_iff, hparse, hop,
      hparts, receivedValues]
    exact ⟨fun h => ⟨hne, h⟩, fun h => h.2⟩
  · simp only [hne, false_and, iff_false]
    simp only [not_forall, not_not] at hne
    obtain ⟨p, hp, hsrc, ht⟩ := hne
    rintro ⟨m, hm, -⟩
    exact matchHttp_of_empty hop hbuild hp hsrc ht m hm

/-- The requests the server can read are the readable ones. -/
theorem readRequest_isOk_iff (henc : encodeJsonRequest codec request = .ok encoded)
    (hop : route.operation = request.operation)
    (hbuild : RouteTable.build codec [route] = .ok table) :
    (∃ out, readRequest codec table encoded (sentBody request) maxQueryPairs = .ok out) ↔
      RequestReadable request maxQueryPairs := by
  obtain ⟨explicit, s, h⟩ := encodeJsonRequest_encoding henc
  obtain ⟨hfits, -⟩ := query_of_encoding h
  have hreceived := received_of_encoding h
  simp only [readRequest_eq_ok_iff henc hop hbuild]
  constructor
  · rintro ⟨out, hpath, hquery, cookies, hcookies, hall, -⟩
    refine ⟨hpath, hquery, ?_, hreceived.cookiesRead_iff.mp ⟨cookies, hcookies⟩, ?_⟩
    · apply hreceived.headersRead_iff.mp
      intro p hp hsrc
      obtain ⟨v, hv⟩ := hall p hp
      rw [decodeParameter_header hsrc] at hv
      exact ⟨v, hv⟩
    · intro p hp hsrc
      obtain ⟨v, hv⟩ := hall p hp
      obtain ⟨fields, hfields, -⟩ := (decodeParameter_headerMap_eq_ok_iff hsrc).mp hv
      exact (hreceived.mapRead_iff hp hsrc).mp ⟨fields, hfields⟩
  · intro hread
    obtain ⟨cookies, hcookies⟩ := hreceived.cookiesRead_iff.mpr hread.cookies
    refine ⟨_, hread.path, hread.query, cookies, hcookies, ?_, rfl⟩
    intro p hp
    by_cases hh : p.source = .header
    · obtain ⟨v, hv⟩ := hreceived.headersRead_iff.mpr hread.header p hp hh
      exact ⟨v, by rw [decodeParameter_header hh]; exact hv⟩
    · by_cases hm : p.source = .headerMap
      · obtain ⟨fields, hfields⟩ := (hreceived.mapRead_iff hp hm).mpr (hread.headerMap p hp hm)
        exact ⟨_, (decodeParameter_headerMap_eq_ok_iff hm).mpr ⟨fields, hfields, rfl⟩⟩
      · exact decodeParameter_isOk_of_encoding hfits rfl hp hh hm

end Read

/-! ## Two requests -/

def IsMap (p : HttpParameter) : Prop := p.source = .queryMap ∨ p.source = .headerMap

/-- The requests differ in the contents of their maps at most. -/
structure SameButMaps (request request' : RequestEncoding) : Prop where
  operation : request'.operation = request.operation
  headers : request'.headers = request.headers
  arguments : ∀ p ∈ request.operation.parameters, ¬ IsMap p →
    request'.arguments.value p.name = request.arguments.value p.name

/-- A supplied Cookie header says that `name` is `text`. -/
def CookieSupplied (request : RequestEncoding) (name text : Text) : Prop :=
  ∃ v ∈ suppliedCookies request, ∃ t, v.toStr = some t ∧
    ∃ piece ∈ t.splitOn ';', CookiePiece piece (name, text)

theorem CookiePiece.unique {piece : Text} {e e' : Text × Text} (h : CookiePiece piece e)
    (h' : CookiePiece piece e') : e = e' := by
  obtain ⟨hname, hvalue⟩ := append_cons_inj h.2 h'.2 (h.1.symm.trans h'.1)
  exact Prod.ext hname hvalue

/-- A cookie is read iff some piece says so. -/
theorem get_parseCookieHeaders {values : List HeaderValue} {cookies : List (Text × Text)}
    (h : parseCookieHeaders [] values = .ok cookies) (name text : Text) :
    Assoc.get cookies name = some text ↔ ∃ v ∈ values, ∃ t, v.toStr = some t ∧
      ∃ piece ∈ t.splitOn ';', CookiePiece piece (name, text) := by
  obtain ⟨texts, pairs, htexts, hall, hout, hnd⟩ := (parseCookieHeaders_eq_ok_iff (by simp)).mp h
  rw [List.nil_append] at hout
  subst hout
  rw [Assoc.get_eq_some_iff hnd]
  constructor
  · intro hm
    obtain ⟨piece, hpiece, hr⟩ := forall₂_mem_right hall hm
    obtain ⟨t, ht, hpiece⟩ := List.mem_flatMap.mp hpiece
    have hsome : some t ∈ values.map HeaderValue.toStr := htexts ▸ List.mem_map_of_mem ht
    obtain ⟨v, hv, hvt⟩ := List.mem_map.mp hsome
    exact ⟨v, hv, t, hvt, piece, hpiece, hr⟩
  · rintro ⟨v, hv, t, hvt, piece, hpiece, hr⟩
    have hsome : some t ∈ texts.map some := htexts ▸ hvt ▸ List.mem_map_of_mem hv
    obtain ⟨t', ht, heq⟩ := List.mem_map.mp hsome
    cases heq
    obtain ⟨e, he, hr'⟩ := forall₂_mem_left hall (List.mem_flatMap.mpr ⟨t, ht, hpiece⟩)
    exact CookiePiece.unique hr hr' ▸ he

section Pair

variable {request request' : RequestEncoding} {explicit : List HeaderName}
  {written received written' received' : HeaderMap}

theorem SameButMaps.cookiesOf_eq (h : SameButMaps request request') :
    cookiesOf request' = cookiesOf request := by
  unfold cookiesOf
  rw [h.operation]
  apply List.flatMap_congr
  intro p hp
  unfold cookiePairs
  split
  · rename_i hsrc
    rw [h.arguments p hp (by simp [IsMap, hsrc])]
  · rfl

theorem SameButMaps.boundText_eq (h : SameButMaps request request') (name : Text) :
    boundText request'.arguments request'.operation.parameters name =
      boundText request.arguments request.operation.parameters name := by
  unfold boundText
  rw [h.operation]
  split
  · rename_i hname
    obtain ⟨p, hp, hsrc, rfl⟩ := mem_namesOf.mp hname
    rw [h.arguments p hp (by simp [IsMap, hsrc])]
  · rfl

/-- Declared Header parameters find the same values. -/
theorem SameButMaps.getAll_eq (h : SameButMaps request request')
    (hr : Received request explicit written received)
    (hr' : Received request' explicit written' received') {n : HeaderName} (hn : n ∈ explicit) :
    received'.getAll n = received.getAll n := by
  have hwritten : written'.getAll n = written.getAll n := by
    rw [hr.writes.getAll, hr'.writes.getAll, h.headers]
    congr 1
    unfold writersOf
    rw [List.flatMap_assoc, List.flatMap_assoc, h.operation]
    apply List.flatMap_congr
    intro p hp
    by_cases hsrc : p.source = .headerMap
    · -- no entry of a map has a declared name
      have hnone : ∀ {request : RequestEncoding} {written received : HeaderMap},
          Received request explicit written received → p ∈ request.operation.parameters →
          (headerWriters request.arguments p).flatMap (fun e =>
            if HeaderName.fromBytes e.1 = some n then valuesFor e.2 else []) = [] := by
        intro request written received hr hp
        rw [List.flatMap_eq_nil_iff]
        intro e he
        rw [headerWriters, hsrc] at he
        obtain ⟨he, ht⟩ := List.mem_filter.mp he
        rw [if_neg]
        intro hname
        exact ((hr.fits p hp).headerMap hsrc e he).2 (by simpa using ht) n hname hn
      rw [hnone hr hp, hnone hr' (h.operation ▸ hp)]
    · by_cases hh : p.source = .header
      · unfold headerWriters
        rw [h.arguments p hp (by simp [IsMap, hh])]
      · have hnil : ∀ arguments, headerWriters arguments p = [] := by
          intro arguments
          unfold headerWriters
          cases hs : p.source <;> simp_all
        rw [hnil, hnil]
  by_cases happ : isApplicationHeader n = true
  · by_cases hne : n = cookie
    · subst hne
      have hcookies := h.cookiesOf_eq
      rcases hr.getAll_cookie with ⟨hnil, heq⟩ | ⟨hne, -, v, hone, hv⟩
      · rcases hr'.getAll_cookie with ⟨-, heq'⟩ | ⟨hne', -⟩
        · rw [heq, heq', hwritten]
        · exact absurd (hcookies.trans hnil) hne'
      · rcases hr'.getAll_cookie with ⟨hnil', -⟩ | ⟨-, -, v', hone', hv'⟩
        · exact absurd (hcookies.symm.trans hnil') hne
        · rw [hcookies, hv, Option.some.injEq] at hv'
          rw [hone, hone', hv']
    · rw [hr.getAll_of_ne_cookie happ hne, hr'.getAll_of_ne_cookie happ hne, hwritten]
  · rw [hr.getAll_of_not_application (by simpa using happ),
      hr'.getAll_of_not_application (by simpa using happ)]

/-- Outside maps and cookies the two requests decode alike. -/
theorem SameButMaps.decodeParameter_eq (h : SameButMaps request request')
    (hr : Received request explicit written received)
    (hr' : Received request' explicit written' received')
    (hfits : ∀ p ∈ request.operation.parameters,
      ArgumentFits (namesOf .query request.operation.parameters) request.arguments p)
    (hfits' : ∀ p ∈ request'.operation.parameters,
      ArgumentFits (namesOf .query request'.operation.parameters) request'.arguments p)
    {p : HttpParameter} (hp : p ∈ request.operation.parameters) (hmap : ¬ IsMap p)
    (hcookie : p.source ≠ .cookie) (cookies cookies' : List (Text × Text)) :
    decodeParameter (receivedParts request' received' cookies') (receivedValues request') p =
      decodeParameter (receivedParts request received cookies) (receivedValues request) p := by
  have hp' : p ∈ request'.operation.parameters := h.operation ▸ hp
  have harg := h.arguments p hp hmap
  have hbody : (receivedParts request received cookies).body = sentBody request := rfl
  have hbody' : (receivedParts request' received' cookies').body = sentBody request' := rfl
  cases hsrc : p.source with
  | cookie => exact absurd hsrc hcookie
  | queryMap => exact absurd (.inl hsrc) hmap
  | headerMap => exact absurd (.inr hsrc) hmap
  | path =>
    unfold decodeParameter receivedParts
    rw [hsrc]
    simp only [h.boundText_eq]
    rw [h.operation]
  | query =>
    unfold receivedValues
    rw [decodeParameter_query hsrc, decodeParameter_query hsrc, valuesOf_query hfits hp hsrc,
      valuesOf_query hfits' hp' hsrc, harg]
  | header =>
    obtain ⟨n, hn, hname⟩ := hr.named p hp hsrc
    rw [decodeParameter_header hsrc, decodeParameter_header hsrc]
    show headerValue received' p.name = headerValue received p.name
    unfold headerValue getAllNamed
    rw [hname]
    simp only
    rw [h.getAll_eq hr hr' hn]
  | body => rw [bodyRoundTrip hp' (.inl hsrc) hbody', bodyRoundTrip hp (.inl hsrc) hbody, harg]
  | bodyField => rw [bodyRoundTrip hp' (.inr hsrc) hbody', bodyRoundTrip hp (.inr hsrc) hbody, harg]

/-- The cookies read are the joined ones, or those a supplied header lists. -/
theorem get_cookies_iff (hr : Received request explicit written received)
    {cookies : List (Text × Text)} (h : parseCookies received = .ok cookies)
    (name text : Text) : (cookiesOf request = [] ∧
        (Assoc.get cookies name = some text ↔ CookieSupplied request name text)) ∨
      (cookiesOf request ≠ [] ∧ cookies = cookiesOf request ∧ ¬ CookieSupplied request name text) := by
  unfold parseCookies at h
  have hsupplied : suppliedCookies request = written.getAll cookie := by
    rw [hr.writes.getAll]
    rfl
  unfold CookieSupplied
  rw [hsupplied]
  rcases hr.getAll_cookie with ⟨hnil, heq⟩ | ⟨hne, hwritten, v, hone, hv⟩
  · rw [heq] at h
    exact .inl ⟨hnil, get_parseCookieHeaders h name text⟩
  · rw [hone, parseCookies_joined hr.cookiePairsFit hne hv] at h
    cases h
    refine .inr ⟨hne, rfl, ?_⟩
    rw [hwritten]
    simp

end Pair

/-- What the server decodes for a parameter; `none` when the request is refused. -/
def readArgument (codec : PercentCodec) (table : RouteTable) (encoded : EncodedRequest)
    (body : Option Json) (maxQueryPairs : Nat) (p : HttpParameter) : Option Json :=
  (readRequest codec table encoded body maxQueryPairs).toOption.bind fun out =>
    Assoc.get out p.name

section Values

variable {codec : PercentCodec} {request request' : RequestEncoding}
  {encoded encoded' : EncodedRequest} {route : Route} {table : RouteTable} {maxQueryPairs : Nat}

theorem readArgument_of_readable (henc : encodeJsonRequest codec request = .ok encoded)
    (hop : route.operation = request.operation)
    (hbuild : RouteTable.build codec [route] = .ok table)
    (hread : RequestReadable request maxQueryPairs) :
    ∃ cookies, parseCookies (applicationHeaders encoded.headers) = .ok cookies ∧
      ∀ p ∈ request.operation.parameters, ∃ v,
        readArgument codec table encoded (sentBody request) maxQueryPairs p = some v ∧
        decodeParameter (receivedParts request (applicationHeaders encoded.headers) cookies)
          (receivedValues request) p = .ok v := by
  obtain ⟨out, hout⟩ := (readRequest_isOk_iff henc hop hbuild).mpr hread
  obtain ⟨-, -, cookies, hcookies, hall, hlist⟩ := (readRequest_eq_ok_iff henc hop hbuild out).mp hout
  refine ⟨cookies, hcookies, fun p hp => ?_⟩
  obtain ⟨v, hv⟩ := hall p hp
  refine ⟨v, ?_, hv⟩
  rw [readArgument, hout, hlist]
  show Assoc.get (request.operation.parameters.map _) p.name = some v
  rw [← decoded_of_eq_ok hv]
  apply Assoc.get_of_mem
  · rw [List.map_map]
    exact request.operation.names_nodup
  · exact List.mem_map.mpr ⟨p, hp, rfl⟩

theorem readArgument_of_not_readable (henc : encodeJsonRequest codec request = .ok encoded)
    (hop : route.operation = request.operation)
    (hbuild : RouteTable.build codec [route] = .ok table)
    (hread : ¬ RequestReadable request maxQueryPairs) (p : HttpParameter) :
    readArgument codec table encoded (sentBody request) maxQueryPairs p = none := by
  rw [← readRequest_isOk_iff henc hop hbuild] at hread
  rw [readArgument]
  cases h : readRequest codec table encoded (sentBody request) maxQueryPairs with
  | error e => rfl
  | ok out => exact absurd ⟨out, h⟩ hread

/-- Two readable requests differ in Cookie parameters at most. -/
theorem readArgument_eq_iff (henc : encodeJsonRequest codec request = .ok encoded)
    (henc' : encodeJsonRequest codec request' = .ok encoded')
    (hsame : SameButMaps request request') (hop : route.operation = request.operation)
    (hbuild : RouteTable.build codec [route] = .ok table)
    (hread : RequestReadable request maxQueryPairs)
    (hread' : RequestReadable request' maxQueryPairs) {p : HttpParameter}
    (hp : p ∈ request.operation.parameters) (hmap : ¬ IsMap p) :
    readArgument codec table encoded' (sentBody request') maxQueryPairs p =
        readArgument codec table encoded (sentBody request) maxQueryPairs p ↔
      (p.source = .cookie → ∀ text,
        CookieSupplied request p.name text ↔ CookieSupplied request' p.name text) := by
  obtain ⟨explicit, s, h⟩ := encodeJsonRequest_encoding henc
  obtain ⟨explicit', s', h'⟩ := encodeJsonRequest_encoding henc'
  have hexplicit : explicit' = explicit := by
    have hc := h'.checked
    rw [hsame.operation, hsame.headers, h.checked] at hc
    cases hc
    rfl
  subst hexplicit
  have hr := received_of_encoding h
  have hr' := received_of_encoding h'
  obtain ⟨cookies, hcookies, hall⟩ := readArgument_of_readable henc hop hbuild hread
  obtain ⟨cookies', hcookies', hall'⟩ := readArgument_of_readable henc'
    (hop.trans hsame.operation.symm) hbuild hread'
  obtain ⟨v, hv, hdec⟩ := hall p hp
  obtain ⟨v', hv', hdec'⟩ := hall' p (hsame.operation ▸ hp)
  rw [hv, hv', Option.some.injEq]
  by_cases hsrc : p.source = .cookie
  · rw [decodeParameter_cookie hsrc] at hdec hdec'
    cases hdec
    cases hdec'
    simp only [hsrc, true_imp_iff]
    have hinj : textOrNull (Assoc.get cookies' p.name) = textOrNull (Assoc.get cookies p.name) ↔
        ∀ text, Assoc.get cookies p.name = some text ↔ Assoc.get cookies' p.name = some text := by
      constructor
      · intro heq text
        have hget : Assoc.get cookies' p.name = Assoc.get cookies p.name := by
          revert heq
          cases Assoc.get cookies' p.name <;> cases Assoc.get cookies p.name <;>
            simp [textOrNull]
        rw [hget]
      · intro hiff
        rw [Option.ext hiff]
    refine hinj.trans (forall_congr' fun text => ?_)
    rcases get_cookies_iff hr hcookies p.name text with ⟨hnil, hsup⟩ | ⟨hne, rfl, hno⟩
    · rcases get_cookies_iff hr' hcookies' p.name text with ⟨-, hsup'⟩ | ⟨hne', -⟩
      · rw [hsup, hsup']
      · exact absurd (hsame.cookiesOf_eq.trans hnil) hne'
    · rcases get_cookies_iff hr' hcookies' p.name text with ⟨hnil', -⟩ | ⟨-, rfl, hno'⟩
      · exact absurd (hsame.cookiesOf_eq.symm.trans hnil') hne
      · rw [hsame.cookiesOf_eq]
        exact iff_of_true Iff.rfl (iff_of_false hno hno')
  · have heq := hsame.decodeParameter_eq hr hr' (query_of_encoding h).1 (query_of_encoding h').1 hp
      hmap hsrc cookies cookies'
    rw [hdec, hdec', Except.ok.injEq] at heq
    exact iff_of_true heq fun hno => absurd hno hsrc

end Values

/-- **Isolation of declared parameters.**  Two requests that differ in their maps alone are
decoded alike, parameter by parameter, exactly when the server reads neither of them, or reads
both and their Cookie headers agree on the declared Cookie parameters. -/
theorem isolation_iff {codec : PercentCodec} {request request' : RequestEncoding}
    {encoded encoded' : EncodedRequest} (henc : encodeJsonRequest codec request = .ok encoded)
    (henc' : encodeJsonRequest codec request' = .ok encoded')
    (hsame : SameButMaps request request') {route : Route}
    (hop : route.operation = request.operation) (maxQueryPairs : Nat) :
    ∃ table, RouteTable.build codec [route] = .ok table ∧
      ((∀ p ∈ request.operation.parameters, ¬ IsMap p →
        readArgument codec table encoded' (sentBody request') maxQueryPairs p =
          readArgument codec table encoded (sentBody request) maxQueryPairs p) ↔
      (∀ p ∈ request.operation.parameters, IsMap p) ∨
      (¬ RequestReadable request maxQueryPairs ∧ ¬ RequestReadable request' maxQueryPairs) ∨
      (RequestReadable request maxQueryPairs ∧ RequestReadable request' maxQueryPairs ∧
        ∀ p ∈ request.operation.parameters, p.source = .cookie → ∀ text,
          CookieSupplied request p.name text ↔ CookieSupplied request' p.name text)) := by
  obtain ⟨table, hbuild⟩ := RouteTable.build_singleton codec route
  refine ⟨table, hbuild, ?_⟩
  have hop' : route.operation = request'.operation := hop.trans hsame.operation.symm
  have heq := fun (hread : RequestReadable request maxQueryPairs)
    (hread' : RequestReadable request' maxQueryPairs) p hp hmap =>
      readArgument_eq_iff henc henc' hsame hop hbuild hread hread' (p := p) hp hmap
  have hnone := fun hread : ¬ RequestReadable request maxQueryPairs =>
    readArgument_of_not_readable henc hop hbuild hread
  have hnone' := fun hread' : ¬ RequestReadable request' maxQueryPairs =>
    readArgument_of_not_readable henc' hop' hbuild hread'
  have hsome := fun hread : RequestReadable request maxQueryPairs =>
    readArgument_of_readable henc hop hbuild hread
  have hsome' := fun hread' : RequestReadable request' maxQueryPairs =>
    readArgument_of_readable henc' hop' hbuild hread'
  by_cases hread : RequestReadable request maxQueryPairs <;>
    by_cases hread' : RequestReadable request' maxQueryPairs
  · -- both are read
    simp only [hread, hread', not_true_eq_false, false_and, true_and, false_or]
    constructor
    · intro hall
      refine .inr fun p hp hsrc => ?_
      have hmap : ¬ IsMap p := by simp [IsMap, hsrc]
      exact (heq hread hread' p hp hmap).mp (hall p hp hmap) hsrc
    · rintro (hmaps | hcookies) p hp hmap
      · exact absurd (hmaps p hp) hmap
      · exact (heq hread hread' p hp hmap).mpr (hcookies p hp)
  · -- the second request is refused, so no declared parameter may be there
    simp only [hread, hread', not_true_eq_false, not_false_eq_true, false_and, and_false, or_false]
    constructor
    · intro hall p hp
      by_contra hmap
      obtain ⟨cookies, -, hvalues⟩ := hsome hread
      obtain ⟨v, hv, -⟩ := hvalues p hp
      have := hall p hp hmap
      rw [hnone' hread' p, hv] at this
      cases this
    · intro hmaps p hp hmap
      exact absurd (hmaps p hp) hmap
  · simp only [hread, hread', not_true_eq_false, not_false_eq_true, false_and, and_false, or_false]
    constructor
    · intro hall p hp
      by_contra hmap
      obtain ⟨cookies, -, hvalues⟩ := hsome' hread'
      obtain ⟨v, hv, -⟩ := hvalues p (hsame.operation ▸ hp)
      have := hall p hp hmap
      rw [hnone hread p, hv] at this
      cases this
    · intro hmaps p hp hmap
      exact absurd (hmaps p hp) hmap
  · refine iff_of_true ?_ (.inr (.inl ⟨hread, hread'⟩))
    intro p _ _
    rw [hnone hread p, hnone' hread' p]

/-- No `sid` argument, and a map with one entry. -/
def extraRequest (name value : String) : RequestEncoding where
  operation := sessionOperation
  arguments := [("X-Name".toList, .string "a".toList),
    ("extra".toList, .object [(name.toList, .string value.toList)])]
  headers := .empty
  distinct := by simp [Json.DistinctKeys, Json.DistinctFields]

theorem sameButMaps_extra (name value name' value' : String) :
    SameButMaps (extraRequest name value) (extraRequest name' value') where
  operation := rfl
  headers := rfl
  arguments := by
    intro p hp hmap
    have hmem : p = nameParameter ∨ p = sidParameter ∨ p = extraParameter := by
      simpa [extraRequest, sessionOperation, HttpOperation.json] using hp
    rcases hmem with rfl | rfl | rfl
    · rfl
    · rfl
    · exact absurd (.inr rfl) hmap

theorem requestReadable_extra {name value : String}
    (hname : HeaderName.fromBytes name.toList ≠ some cookie)
    (hvalue : value.toList.all isVisibleChar = true) :
    RequestReadable (extraRequest name value) 1024 := by
  have hmem : ∀ p ∈ (extraRequest name value).operation.parameters,
      p = nameParameter ∨ p = sidParameter ∨ p = extraParameter := by
    simp [extraRequest, sessionOperation, HttpOperation.json]
  have hfields : fieldsOf ((extraRequest name value).arguments.value extraParameter.name) =
      [(name.toList, .string value.toList)] := rfl
  refine ⟨?_, ?_, ?_, ?_, ?_⟩
  · intro p hp hsrc
    rcases hmem p hp with rfl | rfl | rfl <;> cases hsrc
  · exact Nat.zero_le _
  · intro p hp hsrc text ht _
    rcases hmem p hp with rfl | rfl | rfl
    · cases ht
      decide
    · cases hsrc
    · cases hsrc
  · have hnil : suppliedCookies (extraRequest name value) = [] := by
      have hheader : HeaderName.fromBytes nameParameter.name ≠ some cookie := by decide
      show [] ++ List.flatMap _ [(nameParameter.name, Json.string "a".toList),
        (name.toList, Json.string value.toList)] = []
      simp [hname, hheader]
    rw [hnil]
    exact ⟨[], [], rfl, .nil, List.nodup_nil, by simp⟩
  · intro p hp hsrc
    refine ⟨?_, fun e he => by cases he⟩
    rcases hmem p hp with rfl | rfl | rfl
    · cases hsrc
    · cases hsrc
    · intro e he _ _ _ text htext
      rw [hfields, List.mem_singleton] at he
      rw [he] at htext
      rw [List.mem_singleton.mp htext]
      exact hvalue

theorem isolation_iff_extra : ∃ encoded encoded' table,
    encodeJsonRequest .utf8 (extraRequest "X-Tag" "t") = .ok encoded ∧
    encodeJsonRequest .utf8 (extraRequest "X-Name-2" "u") = .ok encoded' ∧
    RouteTable.build .utf8 [sessionRoute] = .ok table ∧
    readArgument .utf8 table encoded' none 1024 sidParameter =
      readArgument .utf8 table encoded none 1024 sidParameter := by
  have henc : ∃ encoded, encodeJsonRequest .utf8 (extraRequest "X-Tag" "t") = .ok encoded :=
    ⟨_, rfl⟩
  have henc' : ∃ encoded, encodeJsonRequest .utf8 (extraRequest "X-Name-2" "u") = .ok encoded :=
    ⟨_, rfl⟩
  obtain ⟨encoded, henc⟩ := henc
  obtain ⟨encoded', henc'⟩ := henc'
  have hop : sessionRoute.operation = (extraRequest "X-Tag" "t").operation := rfl
  obtain ⟨table, hbuild, hiff⟩ :=
    isolation_iff henc henc' (sameButMaps_extra _ _ _ _) hop 1024
  refine ⟨encoded, encoded', table, henc, henc', hbuild, ?_⟩
  refine hiff.mpr (.inr (.inr ⟨requestReadable_extra (by decide) (by decide),
    requestReadable_extra (by decide) (by decide), ?_⟩)) sidParameter
      (by simp [extraRequest, sessionOperation, HttpOperation.json]) (by simp [IsMap, sidParameter])
  rintro p - - text
  have hnil : suppliedCookies (extraRequest "X-Tag" "t") = [] := by rfl
  have hnil' : suppliedCookies (extraRequest "X-Name-2" "u") = [] := by rfl
  simp [CookieSupplied, hnil, hnil']

/-- An entry named `cookie` sets the declared cookie that the caller left out. -/
theorem isolation_cookie : ∃ encoded encoded' table,
    encodeJsonRequest .utf8 (extraRequest "X-Tag" "sid=1") = .ok encoded ∧
    encodeJsonRequest .utf8 (extraRequest "Cookie" "sid=1") = .ok encoded' ∧
    RouteTable.build .utf8 [sessionRoute] = .ok table ∧
    readArgument .utf8 table encoded none 1024 sidParameter = some .null ∧
    readArgument .utf8 table encoded' none 1024 sidParameter = some (.string ['1']) :=
  ⟨_, _, _, rfl, rfl, rfl, rfl, rfl⟩

end Fusen.Binding
