import Fusen.Binding.Dispatch
import Fusen.Binding.Isolation
import Fusen.Server.Receive

/-!
# A call that arrives

The client encodes a call, a server with the routes of all its services reads it:
`request_arrives_iff` says exactly when the server comes to the route of the call with every
argument as it was sent, however the body is framed, and that reading it leaves the byte
budget as it was.  It takes the value of the body to be one that the JSON crate reads back,
and the byte budget to have room for it in whole chunks.
-/

namespace Fusen.Binding

open Lib Contract Wire Server Fusen.Runtime

/-! ## Arguments -/

/-- Every argument comes back as it was sent. -/
structure ArgumentsArrive (request : RequestEncoding) (out : Arguments) : Prop where
  path : ∀ p ∈ request.operation.parameters, p.source = .path →
    ReadsBack (request.arguments.value p.name) (Assoc.get out p.name)
  query : QueryRoundTrip request out
  headers : HeaderRoundTrip request out
  body : ∀ p ∈ request.operation.parameters, p.source = .body ∨ p.source = .bodyField →
    Assoc.get out p.name = some (request.arguments.value p.name)

section Arguments

variable {request : RequestEncoding} {explicit : List HeaderName} {written received : HeaderMap}
  {cookies : List (Text × Text)} {out : Arguments}

/-- What a Header, Cookie or HeaderMap parameter decodes to comes back iff it fits. -/
theorem headerRoundTrip_iff_of_decoded (h : Received request explicit written received)
    (hcookies : parseCookies received = .ok cookies)
    (hall : ∀ p ∈ request.operation.parameters, ∃ v, decodeParameter
      (receivedParts request received cookies) (receivedValues request) p = .ok v ∧
        Assoc.get out p.name = some v) :
    HeaderRoundTrip request out ↔ HeaderFits request := by
  rw [headerFits_iff h]
  constructor
  · intro hround
    refine ⟨?_, ⟨cookies, hcookies, ?_⟩, ?_⟩
    · intro p hp hsrc
      obtain ⟨v, hdec, hget⟩ := hall p hp
      rw [decodeParameter_header hsrc] at hdec
      exact ⟨v, hdec, hget ▸ hround.header p hp hsrc⟩
    · intro p hp hsrc
      obtain ⟨v, hdec, hget⟩ := hall p hp
      rw [decodeParameter_cookie hsrc] at hdec
      cases hdec
      exact hget ▸ hround.cookie p hp hsrc
    · intro p hp hsrc
      obtain ⟨v, hdec, hget⟩ := hall p hp
      obtain ⟨fields, hmap, rfl⟩ := (decodeParameter_headerMap_eq_ok_iff hsrc).mp hdec
      obtain ⟨fields', hfields, hseq⟩ := hround.headerMap p hp hsrc
      rw [hget] at hfields
      cases hfields
      exact ⟨fields, hmap, hseq⟩
  · rintro ⟨hheader, ⟨cookies', hcookies', hcookie⟩, hmap⟩
    rw [hcookies, Except.ok.injEq] at hcookies'
    subst hcookies'
    refine ⟨?_, ?_, ?_⟩
    · intro p hp hsrc
      obtain ⟨v, hdec, hget⟩ := hall p hp
      obtain ⟨v', hv', hback⟩ := hheader p hp hsrc
      rw [decodeParameter_header hsrc] at hdec
      rw [show received = (receivedParts request received cookies).headers from rfl, hdec,
        Except.ok.injEq] at hv'
      rw [hget, hv']
      exact hback
    · intro p hp hsrc
      obtain ⟨v, hdec, hget⟩ := hall p hp
      rw [decodeParameter_cookie hsrc, Except.ok.injEq] at hdec
      rw [hget, ← hdec]
      exact hcookie p hp hsrc
    · intro p hp hsrc
      obtain ⟨v, hdec, hget⟩ := hall p hp
      obtain ⟨fields, hfields, rfl⟩ := (decodeParameter_headerMap_eq_ok_iff hsrc).mp hdec
      obtain ⟨fields', hfields', hseq⟩ := hmap p hp hsrc
      rw [show received = (receivedParts request received cookies).headers from rfl,
        show Received.explicitTexts request =
          (receivedParts request received cookies).explicitHeaders from rfl, hfields,
        Except.ok.injEq] at hfields'
      exact ⟨fields, hget, hfields' ▸ hseq⟩

/-- Arguments whose headers fit can all be decoded. -/
theorem decodes_of_headerFits (h : Received request explicit written received)
    (hquery : ∀ p ∈ request.operation.parameters,
      ArgumentFits (namesOf .query request.operation.parameters) request.arguments p)
    (hfits : HeaderFits request) : ∃ cookies, parseCookies received = .ok cookies ∧
      ∀ p ∈ request.operation.parameters, ∃ v, decodeParameter
        (receivedParts request received cookies) (receivedValues request) p = .ok v := by
  obtain ⟨hheader, ⟨cookies, hcookies, -⟩, hmap⟩ := (headerFits_iff h).mp hfits
  refine ⟨cookies, hcookies, fun p hp => ?_⟩
  by_cases hh : p.source = .header
  · obtain ⟨v, hv, -⟩ := hheader p hp hh
    exact ⟨v, by rw [decodeParameter_header hh]; exact hv⟩
  · by_cases hm : p.source = .headerMap
    · obtain ⟨fields, hfields, -⟩ := hmap p hp hm
      exact ⟨_, (decodeParameter_headerMap_eq_ok_iff hm).mpr ⟨fields, hfields, rfl⟩⟩
    · exact decodeParameter_isOk_of_encoding hquery rfl hp hh hm

/-- The text of a Path argument is found under its name. -/
theorem decodeParameter_path {p : HttpParameter} (hp : p ∈ request.operation.parameters)
    (hsrc : p.source = .path) {text : Text}
    (ht : scalarOf (request.arguments.value p.name) = some text)
    (values : List (Text × List Text)) :
    decodeParameter (receivedParts request received cookies) values p = .ok (.string text) := by
  have hmem := (request.operation.route_spec.2.2.2.2 p.name).mpr ⟨p, hp, hsrc, rfl⟩
  have hget : Assoc.get (receivedParts request received cookies).pathArguments p.name =
      some text := by
    apply Assoc.get_of_mem
    · unfold receivedParts
      rw [List.map_map]
      simpa [Function.comp_def] using request.operation.route_spec.2.2.1
    · refine List.mem_map.mpr ⟨p.name, hmem, ?_⟩
      rw [boundText, if_pos (mem_namesOf.mpr ⟨p, hp, hsrc, rfl⟩), ht]
      rfl
  unfold decodeParameter
  rw [hsrc]
  show Except.ok (textOrNull (Assoc.get (receivedParts request received cookies).pathArguments
    p.name)) = _
  rw [hget]
  rfl

end Arguments

section Http

variable {codec : PercentCodec} {request : RequestEncoding} {encoded : EncodedRequest}
  {m : MatchedRoute} {maxQueryPairs : Nat}

/-- **The arguments of a matched route** come back exactly when there are not too many query
pairs, the headers fit and no array of a QueryMap mixes `null` with other values. -/
theorem httpArguments_arrive_iff (henc : encodeJsonRequest codec request = .ok encoded)
    (hop : m.route.operation = request.operation)
    (hpath : m.pathArguments = request.operation.placeholders.map fun name =>
      (name, (boundText request.arguments request.operation.parameters name).getD [])) :
    (∃ out, m.httpArguments codec (uriQuery encoded.pathAndQuery)
        (applicationHeaders encoded.headers) (sentBody request) maxQueryPairs = .ok out ∧
      ArgumentsArrive request out) ↔
    (request.operation.parameters.flatMap (parameterPairs request.arguments)).length ≤
        maxQueryPairs ∧
      HeaderFits request ∧ ∀ p ∈ request.operation.parameters, p.source = .queryMap →
        ∀ e ∈ fieldsOf (request.arguments.value p.name), NullFree e.2 := by
  obtain ⟨explicit, s, h⟩ := encodeJsonRequest_encoding henc
  obtain ⟨hquery, hparse⟩ := query_of_encoding h
  have hreceived := received_of_encoding h
  have htexts := (path_of_loop h.loop rfl).2
  generalize applicationHeaders encoded.headers = received at hreceived ⊢
  have hparts : ∀ cookies, m.requestParts received cookies (sentBody request) =
      receivedParts request received cookies := by
    intro cookies
    unfold MatchedRoute.requestParts receivedParts Received.explicitTexts
    rw [hop, hpath]
  simp only [MatchedRoute.httpArguments_eq_ok_iff, hparse, hop, hparts]
  have hget : ∀ (f : HttpParameter → Json), ∀ p ∈ request.operation.parameters,
      Assoc.get (request.operation.parameters.map fun p => (p.name, f p)) p.name = some (f p) := by
    intro f p hp
    rw [← hop] at hp ⊢
    exact MatchedRoute.get_decoded hp f
  have hdecoded : ∀ cookies, (∀ p ∈ request.operation.parameters, ∃ v, decodeParameter
      (receivedParts request received cookies) (receivedValues request) p = .ok v) →
      ∀ p ∈ request.operation.parameters, ∃ v, decodeParameter
        (receivedParts request received cookies) (receivedValues request) p = .ok v ∧
        Assoc.get (request.operation.parameters.map fun p => (p.name, decoded
          (receivedParts request received cookies) (receivedValues request) p)) p.name =
            some v := by
    intro cookies hall p hp
    obtain ⟨v, hv⟩ := hall p hp
    exact ⟨v, hv, by rw [hget _ p hp, decoded_of_eq_ok hv]⟩
  have hquery_iff := fun cookies => @queryRoundTrip_of_decoded request
    (receivedParts request received cookies) (request.operation.parameters.map fun p => (p.name,
      decoded (receivedParts request received cookies) (receivedValues request) p)) hquery rfl
    (hget _)
  constructor
  · rintro ⟨out, ⟨hmax, cookies, hcookies, hall, rfl⟩, harrive⟩
    exact ⟨hmax, (headerRoundTrip_iff_of_decoded hreceived hcookies (hdecoded cookies hall)).mp
      harrive.headers, (hquery_iff cookies).mp harrive.query⟩
  · rintro ⟨hmax, hfits, hfree⟩
    obtain ⟨cookies, hcookies, hall⟩ := decodes_of_headerFits hreceived hquery hfits
    have hd := hdecoded cookies hall
    refine ⟨_, ⟨hmax, cookies, hcookies, hall, rfl⟩, ?_, (hquery_iff cookies).mpr hfree,
      (headerRoundTrip_iff_of_decoded hreceived hcookies hd).mpr hfits, ?_⟩
    · intro p hp hsrc
      obtain ⟨v, hv, hget⟩ := hd p hp
      obtain ⟨text, ht⟩ := htexts p hp hsrc
      rw [decodeParameter_path hp hsrc ht, Except.ok.injEq] at hv
      exact .inr ⟨text, ht, hv ▸ hget⟩
    · intro p hp hsrc
      obtain ⟨v, hv, hget⟩ := hd p hp
      rw [bodyRoundTrip hp hsrc rfl, Except.ok.injEq] at hv
      exact hv ▸ hget

end Http

/-! ## Requests -/

/-- The request as the transport delivers it: the body in any frames, with a `Content-Length`
or without, and the other headers as they were. -/
structure DeliveredRequest (encoded : EncodedRequest) (frames : List Frame) (received : ReceivedRequest) :
    Prop where
  method : received.method = encoded.method
  pathAndQuery : received.pathAndQuery = encoded.pathAndQuery
  application : applicationHeaders received.headers = applicationHeaders encoded.headers
  type : received.headers.getAll contentType = encoded.headers.getAll contentType
  length : received.headers.getAll contentLength = [] ∨ ∃ v,
    received.headers.getAll contentLength = [v] ∧ v.toStr = some (decimal encoded.body.length)
  unchunked : encoded.body = [] → received.headers.containsKey transferEncoding = false
  events : received.body = frames.map Frame.event
  body : assemble frames = encoded.body

/-- The JSON crate reads the value back as it was written, unless it is nested deeper than the
recursion limit. That is so but for floats, which are rounded in reading. -/
structure ReadsJson (crates : ReadCrates) (v : Json) : Prop where
  numbers : v.Numbers
  fromSlice : crates.fromSlice (utf8 v.print) = if v.depth ≤ 127 then some v else none

/-- The calls that arrive. -/
structure CallFits (crates : ReadCrates) (limits : ReadLimits) (routes : List Route)
    (request : RequestEncoding) : Prop where
  dispatches : Dispatches crates.codec routes request
  pairs : (request.operation.parameters.flatMap (parameterPairs request.arguments)).length ≤
    limits.maxQueryPairs
  headers : HeaderFits request
  queryMaps : ∀ p ∈ request.operation.parameters, p.source = .queryMap →
    ∀ e ∈ fieldsOf (request.arguments.value p.name), NullFree e.2
  /-- A body is within the limits, and its media type is text. -/
  body : ∀ v, sentBody request = some v → (utf8 v.print).length ≤ limits.maxRequestBody ∧
    v.depth ≤ 127 ∧ request.operation.consumes.all isVisibleChar = true

theorem isSome_sentBody (request : RequestEncoding) {m : MatchedRoute}
    (hop : m.route.operation = request.operation) :
    (sentBody request).isSome = m.hasBody := by
  have hbody : (bodyArgument request.operation request.arguments).isSome =
      request.operation.parameters.any fun p => p.source = .body := by
    unfold bodyArgument
    rw [Option.isSome_map, Bool.eq_iff_iff, List.getLast?_isSome, ne_eq, List.filter_eq_nil_iff]
    simp
  have hfields : bodyFields request.operation request.arguments ≠ [] ↔
      ∃ p ∈ request.operation.parameters, p.source = .bodyField := by
    unfold bodyFields fieldArguments
    rw [ne_eq, SortedMap.insertAll_eq_nil_iff, List.map_eq_nil_iff, List.filter_eq_nil_iff]
    simp
  rw [Bool.eq_iff_iff, MatchedRoute.hasBody, hop, sentBody]
  cases h : bodyArgument request.operation request.arguments with
  | some v =>
    rw [h, Option.isSome_some, eq_comm, List.any_eq_true] at hbody
    obtain ⟨p, hp, hsrc⟩ := hbody
    simp only [Option.isNone_some, Bool.false_and, Bool.false_eq_true, if_false,
      Option.isSome_some, true_iff, List.any_eq_true]
    exact ⟨p, hp, by simp [of_decide_eq_true hsrc]⟩
  | none =>
    rw [h, Option.isSome_none, eq_comm, List.any_eq_false] at hbody
    simp only [Option.isNone_none, Bool.true_and, decide_eq_true_eq]
    split
    · rename_i hne
      obtain ⟨p, hp, hsrc⟩ := hfields.mp hne
      simp only [Option.isSome_some, true_iff, List.any_eq_true]
      exact ⟨p, hp, by simp [hsrc]⟩
    · rename_i hnil
      simp only [Option.isSome_none, Bool.false_eq_true, false_iff, List.any_eq_true, not_exists,
        not_and]
      intro p hp hsrc
      rcases Bool.or_eq_true_iff.mp hsrc with hsrc | hsrc
      · exact hbody p hp hsrc
      · exact hnil (hfields.mpr ⟨p, hp, of_decide_eq_true hsrc⟩)

theorem print_ne_nil {v : Json} (h : v.Numbers) : v.print ≠ [] := by
  cases v with
  | null => decide
  | bool b => cases b <;> decide
  | number text =>
    intro he
    have hnil : text = [] := he
    subst hnil
    cases h
  | string _ => exact List.cons_ne_nil _ _
  | array items => cases items <;> exact List.cons_ne_nil _ _
  | object fields => cases fields <;> exact List.cons_ne_nil _ _

theorem utf8_ne_nil {s : Text} (h : s ≠ []) : utf8 s ≠ [] := by
  cases s with
  | nil => exact absurd rfl h
  | cons c s =>
    rw [utf8_cons]
    exact fun he => String.utf8EncodeChar_ne_nil (List.append_eq_nil_iff.mp he).1

section Request

variable {crates : ReadCrates} {request : RequestEncoding} {encoded : EncodedRequest}

/-- Only a request with a body has a media type. -/
theorem getAll_contentType (henc : encodeJsonRequest crates.codec request = .ok encoded)
    (hjson : ∀ v, sentBody request = some v → v.Numbers) :
    (sentBody request = none ∧ encoded.body = [] ∧ encoded.headers.getAll contentType = []) ∨
    ∃ v value, sentBody request = some v ∧ encoded.body = utf8 v.print ∧
      HeaderValue.fromStr request.operation.consumes = some value ∧
      encoded.headers.getAll contentType = [value] := by
  obtain ⟨explicit₀, s₀, h₀⟩ := encodeJsonRequest_encoding henc
  have hbody := body_of_encoding h₀
  unfold encodeJsonRequest at henc
  obtain ⟨explicit, hchecked, h⟩ := Except.bind_eq_ok_iff.mp henc
  obtain ⟨s, hloop, h⟩ := Except.bind_eq_ok_iff.mp h
  obtain ⟨withCookies, hcookies, h⟩ := Except.bind_eq_ok_iff.mp h
  obtain ⟨withType, htype, h⟩ := Except.bind_eq_ok_iff.mp h
  obtain ⟨headers, haccept, h⟩ := Except.bind_eq_ok_iff.mp h
  have hheaders := congrArg EncodedRequest.headers (Except.ok.inj h)
  have hbytes := congrArg EncodedRequest.body (Except.ok.inj h)
  dsimp only at hheaders hbytes
  rw [hbytes] at htype
  rw [← hheaders]
  -- nothing before has written the header
  have hfree : withCookies.getAll contentType = [] := by
    have hwritten : s.headers.getAll contentType = [] := by
      rw [(headers_of_loop hloop rfl).1.getAll, (checkCallHeaders_spec hchecked).1 contentType
        (by decide), List.nil_append, List.flatMap_eq_nil_iff]
      intro e he
      rw [if_neg]
      intro hname
      obtain ⟨n, hn, howned, -⟩ := ((headers_of_loop hloop rfl).1.written e he).name
      rw [hname, Option.some.injEq] at hn
      exact howned (hn ▸ (by decide : contentType ∈ runtimeOwned))
    unfold insertCookies at hcookies
    split at hcookies
    · cases hcookies
      exact hwritten
    · split at hcookies
      · cases hcookies
      split at hcookies
      · cases hcookies
        rw [HeaderMap.getAll_insert, if_neg (by decide)]
        exact hwritten
      · cases hcookies
  have hsame : headers.getAll contentType = withType.getAll contentType := by
    unfold insertMediaType at haccept
    split at haccept
    · cases haccept
      rw [HeaderMap.getAll_insert, if_neg (by decide)]
    · cases haccept
  rw [hsame]
  cases hsent : sentBody request with
  | none =>
    rw [hsent] at hbody
    have hbody' : encoded.body = [] := hbody
    refine .inl ⟨rfl, hbody', ?_⟩
    unfold insertContentType at htype
    rw [if_pos hbody'] at htype
    cases htype
    exact hfree
  | some v =>
    rw [hsent] at hbody
    unfold insertContentType at htype
    have hbody' : encoded.body = utf8 v.print := hbody
    rw [hbody', if_neg (utf8_ne_nil (print_ne_nil (hjson v hsent)))] at htype
    unfold insertMediaType at htype
    split at htype
    · rename_i value hvalue
      cases htype
      refine .inr ⟨v, value, rfl, hbody, hvalue, ?_⟩
      rw [HeaderMap.getAll_insert, if_pos rfl]
    · cases htype

/-- The length that the server parses is that of the body. -/
theorem parseContentLength_delivered {frames : List Frame} {received : ReceivedRequest}
    (h : DeliveredRequest encoded frames received) (hlt : encoded.body.length < 2 ^ 64) :
    ∃ length, parseContentLength received.headers = .ok length ∧
      ∀ n ∈ length, n = encoded.body.length := by
  unfold parseContentLength oneHeader
  rcases h.length with hnone | ⟨v, hone, hv⟩
  · rw [hnone]
    exact ⟨none, rfl, by simp⟩
  · rw [hone]
    refine ⟨some encoded.body.length, ?_, by simp⟩
    simp only [bind, hv, Except.bind, Option.bind_some, parseUnsigned_decimal hlt]

variable {routes : List Route} {table : RouteTable} {route : Route} {readLimits : ReadLimits}
  {limits : Nat → Fin Usize.size} {L : Ledger} {held : List Nat} {frames : List Frame}
  {received : ReceivedRequest} {m : MatchedRoute}

/-- What is sent without a body is read from the head. -/
theorem matched_absent_iff (hdelivered : DeliveredRequest encoded frames received)
    (hbody : m.hasBody = false) (hbytes : encoded.body = [])
    (htype : encoded.headers.getAll contentType = []) (out : Arguments) :
    (∃ contentLength, m.acceptHead crates received.headers = .ok contentLength ∧
      ∃ L', L.Restored L' ∧ (m.executeBody crates readLimits received contentLength).exec limits L
        held = some (some (.ok out), L', held)) ↔
      m.arguments crates readLimits received none = .ok out := by
  have hframes := hdelivered.body.trans hbytes
  simp only [MatchedRoute.executeBody_absent hbody hdelivered.events hframes]
  constructor
  · rintro ⟨-, -, L', -, hexec⟩
    simp only [Option.some.injEq, Prod.mk.injEq] at hexec
    exact hexec.1
  · intro hargs
    obtain ⟨length, hlength, hsame⟩ := parseContentLength_delivered hdelivered (by
      rw [hbytes]
      decide)
    refine ⟨length, MatchedRoute.acceptHead_eq_ok_iff.mpr ⟨hlength, ?_, fun _ => ⟨?_, ?_⟩⟩, L,
      .refl L, by rw [hargs]⟩
    · exact validateContentType_eq_ok_iff.mpr (.inl ⟨hdelivered.type.trans htype, hbody⟩)
    · rw [Option.any_eq_false]
      intro n hn
      rw [hsame n hn, hbytes]
      decide
    · exact hdelivered.unchunked hbytes

/-- What is sent with a body is read from it, if the limits and the media type allow. -/
theorem matched_body_iff (hdelivered : DeliveredRequest encoded frames received)
    (hbody : m.hasBody = true) {v : Json} (hbytes : encoded.body = utf8 v.print)
    (hjson : ReadsJson crates v) (hempty : crates.parseMime [] = none) {value : HeaderValue}
    (hvalue : HeaderValue.fromStr m.route.operation.consumes = some value)
    (hconsumes : isJsonMediaType crates.parseMime m.route.operation.consumes = true)
    (htype : encoded.headers.getAll contentType = [value])
    (hroom : L.used readLimits.requestBudget + chunked encoded.body.length ≤
      limits readLimits.requestBudget) (out : Arguments) :
    (∃ contentLength, m.acceptHead crates received.headers = .ok contentLength ∧
      ∃ L', L.Restored L' ∧ (m.executeBody crates readLimits received contentLength).exec limits L
        held = some (some (.ok out), L', held)) ↔
      ((utf8 v.print).length ≤ readLimits.maxRequestBody ∧ v.depth ≤ 127 ∧
        m.route.operation.consumes.all isVisibleChar = true) ∧
      m.arguments crates readLimits received (some v) = .ok out := by
  have hframes := hdelivered.body.trans hbytes
  have hmatches := mediaTypeMatches_iff hempty hvalue hconsumes
  have hdecode : m.decodeBody crates readLimits received (utf8 v.print) = .ok out ↔
      v.depth ≤ 127 ∧ m.arguments crates readLimits received (some v) = .ok out := by
    unfold MatchedRoute.decodeBody
    rw [hjson.fromSlice]
    by_cases hdepth : v.depth ≤ 127
    · simp [hdepth]
    · simp [hdepth]
  constructor
  · rintro ⟨contentLength, hhead, L', -, hexec⟩
    obtain ⟨-, hcontent, -⟩ := MatchedRoute.acceptHead_eq_ok_iff.mp hhead
    have hread := MatchedRoute.executeBody_ok hdelivered.events hexec
    rw [if_pos hbody, hframes, hdecode] at hread
    obtain ⟨hmax, hdepth, hargs⟩ := hread
    refine ⟨⟨hmax, hdepth, ?_⟩, hargs⟩
    rcases validateContentType_eq_ok_iff.mp hcontent with ⟨-, hno⟩ | ⟨value', hone, hmatch⟩
    · rw [hbody] at hno
      cases hno
    · rw [hdelivered.type, htype] at hone
      cases hone
      exact hmatches.mp hmatch
  · rintro ⟨⟨hmax, hdepth, hvisible⟩, hargs⟩
    obtain ⟨length, hlength, hsame⟩ := parseContentLength_delivered hdelivered
      ((le_chunked _).trans_lt (lt_of_room hroom))
    have hfits : L.used readLimits.requestBudget + reservation (length.getD 0)
        (assemble frames).length ≤ limits readLimits.requestBudget := by
      rw [hdelivered.body]
      exact (Nat.add_le_add_left (reservation_le_chunked hsame) _).trans hroom
    obtain ⟨L', hL', hexec⟩ := MatchedRoute.executeBody_accepts hbody hdelivered.events
      (by rw [hframes]; exact hmax) (fun n hn => by rw [hdelivered.body]; exact hsame n hn) hfits
    refine ⟨length, MatchedRoute.acceptHead_eq_ok_iff.mpr ⟨hlength, ?_, fun hno => ?_⟩, L', hL', ?_⟩
    · exact validateContentType_eq_ok_iff.mpr
        (.inr ⟨value, hdelivered.type.trans htype, hmatches.mpr hvisible⟩)
    · rw [hbody] at hno
      cases hno
    · rw [hexec, hframes, hdecode.mpr ⟨hdepth, hargs⟩]

/-- What comes after the match, for the route of the call. -/
theorem matched_iff (hm : m.route.operation = request.operation)
    (henc : encodeJsonRequest crates.codec request = .ok encoded)
    (hdelivered : DeliveredRequest encoded frames received)
    (hjson : ∀ v, sentBody request = some v → ReadsJson crates v)
    (hempty : crates.parseMime [] = none)
    (hconsumes : isJsonMediaType crates.parseMime request.operation.consumes = true)
    (hroom : L.used readLimits.requestBudget + chunked encoded.body.length ≤
      limits readLimits.requestBudget) (held : List Nat) (out : Arguments) :
    (∃ contentLength, m.acceptHead crates received.headers = .ok contentLength ∧
      ∃ L', L.Restored L' ∧ (m.executeBody crates readLimits received contentLength).exec limits L
        held = some (some (.ok out), L', held)) ↔
      (∀ v, sentBody request = some v → (utf8 v.print).length ≤ readLimits.maxRequestBody ∧
        v.depth ≤ 127 ∧ request.operation.consumes.all isVisibleChar = true) ∧
      m.httpArguments crates.codec (uriQuery encoded.pathAndQuery)
        (applicationHeaders encoded.headers) (sentBody request) readLimits.maxQueryPairs =
          .ok out := by
  have hread : ∀ body, m.arguments crates readLimits received body =
      m.httpArguments crates.codec (uriQuery encoded.pathAndQuery)
        (applicationHeaders encoded.headers) body readLimits.maxQueryPairs := by
    intro body
    rw [MatchedRoute.arguments, hdelivered.pathAndQuery, hdelivered.application]
  have hsome := isSome_sentBody request hm
  rcases getAll_contentType henc (fun v hv => (hjson v hv).numbers) with
    ⟨hnone, hbytes, htype⟩ | ⟨v, value, hsent, hbytes, hvalue, htype⟩
  · rw [hnone] at hsome ⊢
    rw [matched_absent_iff hdelivered hsome.symm hbytes htype, hread]
    simp
  · rw [hsent] at hsome ⊢
    rw [← hm] at hvalue hconsumes
    rw [matched_body_iff hdelivered hsome.symm hbytes (hjson v hsent) hempty hvalue hconsumes
      htype hroom, hread, hm]
    simp

/-- A call that fits is received. -/
theorem receives_of_callFits (hbuild : RouteTable.build crates.codec routes = .ok table)
    (hmem : route ∈ routes) (hop : route.operation = request.operation)
    (henc : encodeJsonRequest crates.codec request = .ok encoded)
    (hdelivered : DeliveredRequest encoded frames received)
    (hjson : ∀ v, sentBody request = some v → ReadsJson crates v)
    (hempty : crates.parseMime [] = none)
    (hconsumes : isJsonMediaType crates.parseMime request.operation.consumes = true)
    (hroom : L.used readLimits.requestBudget + chunked encoded.body.length ≤
      limits readLimits.requestBudget) (held : List Nat)
    (hfits : CallFits crates readLimits routes request) :
    ∃ m out, m.route = route ∧ table.Receives crates readLimits limits L held received m out ∧
      ArgumentsArrive request out := by
  obtain ⟨hdispatch, hpairs, hheaders, hmaps, hbody⟩ := hfits
  obtain ⟨out, hargs, harrive⟩ := (httpArguments_arrive_iff (m := ⟨route, _⟩) henc hop
    rfl).mpr ⟨hpairs, hheaders, hmaps⟩
  refine ⟨⟨route, _⟩, out, rfl, RouteTable.receives_iff.mpr ⟨?_,
    (matched_iff hop henc hdelivered hjson hempty hconsumes hroom held out).mpr ⟨hbody, hargs⟩⟩,
    harrive⟩
  rw [hdelivered.method, hdelivered.pathAndQuery]
  exact (path_dispatches_iff hbuild hmem hop henc rfl).mpr ⟨hdispatch, rfl⟩

/-- **A call arrives**, at its own route and with every argument as it was sent, exactly when
`CallFits` holds of it, if its body can be read back and the byte budget has room for it; the
table may hold the routes of any other services. -/
theorem request_arrives_iff (hbuild : RouteTable.build crates.codec routes = .ok table)
    (hmem : route ∈ routes) (hop : route.operation = request.operation)
    (henc : encodeJsonRequest crates.codec request = .ok encoded)
    (hdelivered : DeliveredRequest encoded frames received)
    (hjson : ∀ v, sentBody request = some v → ReadsJson crates v)
    (hempty : crates.parseMime [] = none)
    (hconsumes : isJsonMediaType crates.parseMime request.operation.consumes = true)
    (hroom : L.used readLimits.requestBudget + chunked encoded.body.length ≤
      limits readLimits.requestBudget) (held : List Nat) :
    (∃ m out, m.route = route ∧ table.Receives crates readLimits limits L held received m out ∧
        ArgumentsArrive request out) ↔
      CallFits crates readLimits routes request := by
  constructor
  · rintro ⟨m, out, hroute, hreceives, harrive⟩
    obtain ⟨hmatch, hrest⟩ := RouteTable.receives_iff.mp hreceives
    rw [hdelivered.method, hdelivered.pathAndQuery,
      path_dispatches_iff hbuild hmem hop henc hroute] at hmatch
    obtain ⟨hbody, hargs⟩ := (matched_iff (hroute ▸ hop) henc hdelivered hjson hempty hconsumes
      hroom held out).mp hrest
    obtain ⟨hpairs, hheaders, hmaps⟩ := (httpArguments_arrive_iff henc (hroute ▸ hop)
      hmatch.2).mp ⟨out, hargs, harrive⟩
    exact ⟨hmatch.1, hpairs, hheaders, hmaps, hbody⟩
  · exact receives_of_callFits hbuild hmem hop henc hdelivered hjson hempty hconsumes hroom held

end Request

/-! ### A call next to a route that could shadow it -/

def noteOperation : HttpOperation :=
  .json .post "/users/{id}/notes" [⟨"id".toList, .path, .scalar, (rfl : true = true)⟩,
    ⟨"note".toList, .body, .scalar, (rfl : true = true)⟩] (by decide +kernel)

def ownNotesOperation : HttpOperation := .json .post "/users/me/notes" [] (by decide +kernel)

def noteRoute : Route := ⟨"notes".toList, ⟨0, "note".toList, noteOperation, (rfl : true = true)⟩⟩

def ownNotesRoute : Route := ⟨"own".toList, ⟨0, "notes".toList, ownNotesOperation, by decide⟩⟩

def noteBody : Json := .object [("text".toList, .string "hi".toList)]

def noteRequest (id : String) : RequestEncoding where
  operation := noteOperation
  arguments := [("id".toList, .string id.toList), ("note".toList, noteBody)]
  headers := .empty
  distinct := by simp [noteBody, Json.DistinctKeys, Json.DistinctFields]

def plainCrates : ReadCrates where
  codec := .utf8
  parseMime text := if text = "application/json".toList then
    some ⟨"application".toList, "json".toList, none⟩ else none
  fromSlice bytes := (utf8Text bytes).bind (Json.read 127)

def noteTemplate : List Segment :=
  [.literal "users".toList, .parameter "id".toList, .literal "notes".toList]

def ownNotesTemplate : List Segment :=
  [.literal "users".toList, .literal "me".toList, .literal "notes".toList]

theorem parseTemplate_note : parseTemplate .utf8 noteOperation.path = .ok noteTemplate := by
  decide +kernel

theorem parseTemplate_ownNotes :
    parseTemplate .utf8 ownNotesOperation.path = .ok ownNotesTemplate := by
  decide +kernel

theorem build_notes : ∃ table, RouteTable.build .utf8 [noteRoute, ownNotesRoute] = .ok table := by
  rw [RouteTable.build_isOk_iff]
  refine ⟨?_, ?_⟩
  · rintro r hr
    rcases List.mem_pair.mp hr with rfl | rfl
    · exact ⟨_, parseTemplate_note⟩
    · exact ⟨_, parseTemplate_ownNotes⟩
  · rw [List.pairwise_pair]
    rintro ⟨-, t, t', ht, ht', he⟩
    rw [show parseTemplate .utf8 noteRoute.operation.path = .ok noteTemplate from
      parseTemplate_note, Except.ok.injEq] at ht
    rw [show parseTemplate .utf8 ownNotesRoute.operation.path = .ok ownNotesTemplate from
      parseTemplate_ownNotes, Except.ok.injEq] at ht'
    subst ht ht'
    exact absurd he (by decide)

theorem callFits_note : CallFits plainCrates ⟨64, 0, 16⟩ [noteRoute, ownNotesRoute]
    (noteRequest "7") := by
  have hmem : ∀ p ∈ (noteRequest "7").operation.parameters,
      p = ⟨"id".toList, .path, .scalar, by decide⟩ ∨
        p = ⟨"note".toList, .body, .scalar, by decide⟩ := by
    simp [noteRequest, noteOperation, HttpOperation.json]
  have hother : ∀ p ∈ (noteRequest "7").operation.parameters,
      p.source = .path ∨ p.source = .body := by
    intro p hp
    rcases hmem p hp with rfl | rfl <;> simp
  refine ⟨⟨?_, ?_⟩, by decide, ⟨?_, ?_, ?_, ?_, ?_, ?_⟩, ?_, ?_⟩
  · intro p hp hsrc
    rcases hmem p hp with rfl | rfl
    · decide
    · cases hsrc
  · intro r hr _ template ht hmatch
    rcases List.mem_pair.mp hr with rfl | rfl
    · rw [show parseTemplate plainCrates.codec noteRoute.operation.path = .ok noteTemplate from
        parseTemplate_note, Except.ok.injEq] at ht
      subst ht
      exact fun h => h.asymm h
    · rw [show parseTemplate plainCrates.codec ownNotesRoute.operation.path =
        .ok ownNotesTemplate from parseTemplate_ownNotes, Except.ok.injEq] at ht
      subst ht
      have hsegments : wireSegments plainCrates.codec (noteRequest "7") =
          ["users".toList, "7".toList, "notes".toList] := by
        decide +kernel
      rw [hsegments] at hmatch
      cases hmatch with
      | cons _ h =>
        cases h with
        | cons h _ => exact absurd (show "7".toList = "me".toList from h) (by decide)
  · intro p hp hsrc
    rcases hother p hp with h | h <;> simp [hsrc] at h
  · intro p hp hsrc
    rcases hother p hp with h | h <;> simp [hsrc] at h
  · intro p hp hsrc
    rcases hother p hp with h | h <;> simp [hsrc] at h
  · have hnil : suppliedCookies (noteRequest "7") = [] := by rfl
    rw [hnil]
    exact ⟨[], [], rfl, .nil, List.nodup_nil, by simp⟩
  · intro p hp hsrc
    rcases hother p hp with h | h <;> simp [hsrc] at h
  · rintro ⟨p, hp, hsrc⟩
    rcases hother p hp with h | h <;> simp [hsrc] at h
  · intro p hp hsrc
    rcases hother p hp with h | h <;> simp [hsrc] at h
  · intro v hv
    have hbody : sentBody (noteRequest "7") = some noteBody := by rfl
    rw [hbody, Option.some.injEq] at hv
    subst hv
    exact ⟨by decide, by decide, by decide⟩

theorem readsJson_note : ReadsJson plainCrates noteBody := by
  have hnumbers : noteBody.Numbers := ⟨trivial, trivial⟩
  refine ⟨hnumbers, ?_⟩
  show (utf8Text (utf8 noteBody.print)).bind (Json.read 127) = _
  rw [utf8Text_utf8, Option.bind_some, Json.read_print hnumbers]

theorem readsJson_noteBody : ∀ v, sentBody (noteRequest "7") = some v →
    ReadsJson plainCrates v := by
  intro v hv
  rw [show sentBody (noteRequest "7") = some noteBody from rfl, Option.some.injEq] at hv
  exact hv ▸ readsJson_note

def jsonValue : HeaderValue := ⟨utf8 "application/json".toList, by decide⟩

/-- The note in two frames, with its length. -/
def noteReceived : ReceivedRequest where
  method := .post
  pathAndQuery := "/users/7/notes".toList
  headers := ⟨[(contentType, jsonValue), (accept, jsonValue),
    (contentLength, ⟨utf8 (decimal 13), by decide⟩)]⟩
  body := [.data (utf8 "\x7b\"text\":".toList), .trailers, .data (utf8 "\"hi\"\x7d".toList)]

theorem request_arrives_note : ∃ table m out,
    RouteTable.build .utf8 [noteRoute, ownNotesRoute] = .ok table ∧ m.route = noteRoute ∧
    table.Receives plainCrates ⟨64, 0, 16⟩ (tightBudget 8192) .empty [] noteReceived m out ∧
    ArgumentsArrive (noteRequest "7") out := by
  have henc : encodeJsonRequest plainCrates.codec (noteRequest "7") = .ok
      ⟨.post, "/users/7/notes".toList, ⟨[(contentType, jsonValue), (accept, jsonValue)]⟩,
        utf8 noteBody.print⟩ := rfl
  have hdelivered : DeliveredRequest ⟨.post, "/users/7/notes".toList,
      ⟨[(contentType, jsonValue), (accept, jsonValue)]⟩, utf8 noteBody.print⟩
      [some (utf8 "\x7b\"text\":".toList), none, some (utf8 "\"hi\"\x7d".toList)] noteReceived :=
    ⟨rfl, rfl, rfl, rfl, .inr ⟨_, rfl, by decide⟩, by decide, rfl, by decide⟩
  obtain ⟨table, hbuild⟩ := build_notes
  have hop : noteRoute.operation = (noteRequest "7").operation := rfl
  have hroom : Ledger.empty.used 0 + chunked (utf8 noteBody.print).length ≤ tightBudget 8192 0 := by
    decide
  obtain ⟨m, out, hroute, hreceives, harrive⟩ := (request_arrives_iff hbuild
    (List.mem_pair.mpr (.inl rfl)) hop henc hdelivered readsJson_noteBody rfl rfl hroom []).mpr callFits_note
  exact ⟨table, m, out, hbuild, hroute, hreceives, harrive⟩

end Fusen.Binding
