import Fusen.Invocation.RetryAfter
import Fusen.Server.ErrorEcho
import Fusen.Wire.Framing
import Fusen.Wire.MediaType

/-!
# The server's responses at the client

`receiveResponse` is `decode_http_response` with the decoders of `JsonCodec`.
`response_arrives_iff`: the successful response that a server encodes comes to the client
with its status, its headers and its body, unless the body is longer than the client allows
or its media type is no text.
-/

namespace Fusen.Server

open Lib Contract Wire Fusen.Runtime

/-! ## Reading a response -/

structure ReceivedResponse where
  status : StatusCode
  version : HttpVersion
  headers : HeaderMap
  body : List BodyEvent

def validateResponseHttpVersion (version : HttpVersion) (requestId : Text) (headers : HeaderMap) :
    Except Error Unit :=
  match version with
  | .http11 | .http2 => .ok ()
  | _ => .error ((remoteProtocolError "invalid_http_version"
      "remote response must use HTTP/1.1 or HTTP/2" requestId).withHeaders
        (responseHeadersWithoutControl headers))

def invalidResponseContentLength (requestId : Text) (headers : HeaderMap) : Error :=
  (remoteProtocolError "invalid_content_length"
    "response Content-Length must be exactly one non-negative integer" requestId).withHeaders
      (responseHeadersWithoutControl headers)

def parseResponseContentLength (headers : HeaderMap) (requestId : Text) :
    Except Error (Option Nat) :=
  match headers.getAll contentLength with
  | [] => .ok none
  | [value] =>
    match value.toStr.bind (parseUnsigned (2 ^ 64)) with
    | some length => .ok (some length)
    | none => .error (invalidResponseContentLength requestId headers)
  | _ => .error (invalidResponseContentLength requestId headers)

def invalidResponseContentType (requestId : Text) (headers : HeaderMap) : Error :=
  (remoteProtocolError "invalid_content_type"
    "response Content-Type does not match the declared JSON media type" requestId).withHeaders
      (responseHeadersWithoutControl headers)

section

variable (parseMime : Text → Option Mime)

def validateJsonResponseContentType (headers : HeaderMap) (expected requestId : Text) :
    Except Error Unit :=
  match headers.getAll contentType with
  | [value] =>
    if mediaTypeMatches parseMime value expected then .ok ()
    else .error (invalidResponseContentType requestId headers)
  | _ => .error (invalidResponseContentType requestId headers)

/-- `<JsonCodec as ResponseDecoder>::decode` of a success: the bytes are kept as they are. -/
def decodeJsonResponse (status : StatusCode) (headers : HeaderMap) (produces requestId : Text)
    (bytes : List UInt8) : Except Error (List UInt8) :=
  if status.code = 204 ∨ status.code = 205 then .ok bytes
  else (validateJsonResponseContentType parseMime headers produces requestId).map fun _ => bytes

/-- What `decode_http_response` makes of a response outside the budget, with `JsonCodec`. -/
def responseHead (crates : Crates) (now : Nat) (method : Method) (produces expectedId : Text)
    (invocationControls : Bool) (response : ReceivedResponse) : ResponseHead :=
  let decoderHeaders := responseHeadersForDecoder response.headers
  { head := method = .head
    status := response.status
    requestId := expectedId
    checked := do
      validateResponseHttpVersion response.version expectedId response.headers
      validateResponseRequestId invocationControls response.headers expectedId
    contentLength := parseResponseContentLength response.headers expectedId
    decodeError := fun body => (((decodeError crates now method ⟨response.status, decoderHeaders,
      body, expectedId, invocationControls⟩).withRemoteOrigin).withRequestId expectedId).withHeaders
        (responseHeadersWithoutControl decoderHeaders)
    decode := fun bytes => (decodeJsonResponse parseMime response.status decoderHeaders produces
      expectedId bytes).mapError Error.withRemoteOrigin }

def receiveResponse (crates : Crates) (now : Nat) (method : Method) (produces expectedId : Text)
    (invocationControls : Bool) (maxBody budget : Nat) (response : ReceivedResponse) :
    Prog (Awaited Response) :=
  let applicationHeaders :=
    responseHeadersWithoutControl (responseHeadersForDecoder response.headers)
  decodeHttpResponse (responseHead parseMime crates now method produces expectedId
      invocationControls response) response.body maxBody budget >>= fun
    | none => .pure none
    -- every remote error is given the same headers
    | some (.error e) => .pure (some (.error
        (if e.origin = .remote then e.withHeaders applicationHeaders else e)))
    | some (.ok body) => .pure (some (.ok ⟨response.status, applicationHeaders, body⟩))

end

/-! ## Writing a response -/

/-- What an encoded response consists of. -/
structure Encodes (response : Response) (produces : Text) (suppressed : Bool)
    (encoded : HttpResponse) : Prop where
  status : encoded.status = response.status
  headers : ∀ name, name ≠ contentType →
    encoded.headers.getAll name = (responseHeadersWithoutControl response.headers).getAll name
  type : suppressed = false → ∃ value, HeaderValue.fromStr produces = some value ∧
    encoded.headers.getAll contentType = [value]
  body : encoded.body.bytes = if suppressed then [] else response.body.bytes

theorem encodeWithPermit_ends (response : Response) (produces : Text) (suppressed : Bool)
    (permit : Nat) : (encodeWithPermit response produces suppressed permit).Ends
      fun r => ∀ encoded, r = .ok encoded → Encodes response produces suppressed encoded := by
  unfold encodeWithPermit
  cases suppressed with
  | true =>
    rintro _ ⟨⟩
    exact ⟨rfl, fun _ _ => rfl, by simp, rfl⟩
  | false =>
    cases hvalue : HeaderValue.fromStr produces with
    | none =>
      rintro _ ⟨⟩
    | some value =>
      rintro _ ⟨⟩
      refine ⟨rfl, fun name hname => ?_, fun _ => ⟨value, hvalue, ?_⟩, rfl⟩
      · exact (HeaderMap.getAll_insert _ _ _ _).trans (if_neg (Ne.symm hname))
      · exact (HeaderMap.getAll_insert _ _ _ _).trans (if_pos rfl)

theorem encodeReserving_ends (response : Response) (produces : Text) (suppressed : Bool)
    (total budget : Nat) : (encodeReserving response produces suppressed total budget).Ends
      fun r => ∀ encoded, r = .ok encoded → Encodes response produces suppressed encoded := by
  intro permit
  cases permit with
  | none => rintro _ ⟨⟩
  | some permit => exact encodeWithPermit_ends response produces suppressed permit

/-- **What the server encodes**, whatever the budget. -/
theorem encodeSuccess_ends (response : Response) (produces : Text) (suppressBody : Bool)
    (maxBody budget : Nat) : (encodeSuccess response produces suppressBody maxBody budget).Ends
      fun r => ∀ encoded, r = .ok encoded →
        Encodes response produces (response.suppressesBody suppressBody) encoded := by
  unfold encodeSuccess
  dsimp only
  split
  · cases response.body.permit with
    | none => rintro _ ⟨⟩
    | some permit => rintro _ ⟨⟩
  · cases response.body.permit with
    | none => exact encodeReserving_ends _ _ _ _ _
    | some permit =>
      intro own
      cases own with
      | true =>
        intro n
        dsimp only
        split
        · intro ok
          cases ok with
          | true => exact encodeWithPermit_ends _ _ _ _
          | false => rintro _ ⟨⟩
        · exact encodeWithPermit_ends _ _ _ _
      | false =>
        refine Prog.ends_bind.mpr ((encodeReserving_ends response produces _ _ _).mono ?_)
        exact fun r hr => hr

/-! ## What is delivered -/

/-- The response as the transport delivers it: the body in any frames, with a `Content-Length`
or without; headers under other names may be new. -/
structure DeliveredResponse (sent : HttpResponse) (suppressed : Bool) (frames : List Frame)
    (received : ReceivedResponse) : Prop where
  status : received.status = sent.status
  version : received.version = .http11 ∨ received.version = .http2
  headers : ∀ name, sent.headers.getAll name ≠ [] →
    received.headers.getAll name = sent.headers.getAll name
  length : suppressed = false → received.headers.getAll contentLength = [] ∨
    ∃ v, received.headers.getAll contentLength = [v] ∧
      v.toStr = some (decimal sent.body.bytes.length)
  events : received.body = frames.map Frame.event
  body : assemble frames = sent.body.bytes

/-- A response comes to the client as it left the service; a body that is not sent is `null`. -/
structure ResponseArrives (response : Response) (suppressed : Bool) (out : Response) : Prop where
  status : out.status = response.status
  headers : ∀ name, name ∉ controlHeaders → name ≠ keepAlive →
    response.headers.getAll name ≠ [] →
      out.headers.getAll name = response.headers.getAll name
  body : out.body.bytes = if suppressed then nullBytes else response.body.bytes

theorem getAll_foldl_remove (names : List HeaderName) (headers : HeaderMap) (name : HeaderName) :
    (names.foldl HeaderMap.remove headers).getAll name =
      if name ∈ names then [] else headers.getAll name := by
  induction names generalizing headers with
  | nil => simp
  | cons n names ih =>
    rw [List.foldl_cons, ih, HeaderMap.getAll_remove]
    by_cases hmem : name ∈ names
    · simp [hmem]
    · by_cases hn : n = name
      · simp [hn]
      · simp [hmem, hn, Ne.symm hn]

theorem getAll_withoutControl (headers : HeaderMap) {name : HeaderName}
    (hname : name ∉ controlHeaders) (hka : name ≠ keepAlive) :
    (responseHeadersWithoutControl headers).getAll name = headers.getAll name := by
  unfold responseHeadersWithoutControl
  rw [HeaderMap.getAll_remove, if_neg (Ne.symm hka), getAll_foldl_remove, if_neg hname]

theorem getAll_forDecoder (headers : HeaderMap) {name : HeaderName}
    (hname : name ∉ controlHeaders ∨ name = contentType) (hka : name ≠ keepAlive) :
    (responseHeadersForDecoder headers).getAll name = headers.getAll name := by
  have hremoved : ∀ n ∈ [connection, te, trailer, transferEncoding, upgrade, keepAlive, requestId,
      timeoutMs, attempt, serviceGroup, serviceVersion],
      n = keepAlive ∨ n ∈ controlHeaders ∧ n ≠ contentType := by
    decide
  unfold responseHeadersForDecoder
  rw [getAll_foldl_remove, if_neg]
  intro hmem
  rcases hremoved name hmem with h | ⟨hcontrol, htype⟩
  · exact hka h
  · rcases hname with h | h
    · exact h hcontrol
    · exact htype h

section

variable {response : Response} {encoded sent : HttpResponse} {produces id : Text}
  {suppressed controls : Bool} {frames : List Frame} {received : ReceivedResponse}

/-- What the last step of the server changes. -/
theorem sealResponse_eq_some (h : sealResponse encoded id controls = some sent) :
    sent.status = encoded.status ∧ sent.body = encoded.body ∧
      (∀ name, name ≠ requestId → sent.headers.getAll name = encoded.headers.getAll name) ∧
      (controls = true → requestIdIsValid id = true → ReadsAs sent.headers requestId (some id)) := by
  unfold sealResponse at h
  cases controls with
  | true =>
    obtain ⟨v, hv, rfl⟩ := Option.map_eq_some_iff.mp h
    refine ⟨rfl, rfl, fun name hname => ?_, fun _ hid => ?_⟩
    · exact (HeaderMap.getAll_insert _ _ _ _).trans (if_neg (Ne.symm hname))
    · obtain ⟨v', hv', hstr⟩ := fromStr_plain (requestId_plain hid).2
      rw [hv, Option.some.injEq] at hv'
      exact ⟨v, (HeaderMap.getAll_insert _ _ _ _).trans (if_pos rfl), hv' ▸ hstr⟩
  | false =>
    cases h
    refine ⟨rfl, rfl, fun name hname => ?_, by simp⟩
    exact (HeaderMap.getAll_remove _ _ _).trans (if_neg (Ne.symm hname))

/-- The head of what was delivered passes the client's checks. -/
theorem checked_delivered (h : DeliveredResponse sent suppressed frames received)
    (hid : requestIdIsValid id = true)
    (hsealed : controls = true → ReadsAs sent.headers requestId (some id)) :
    (do validateResponseHttpVersion received.version id received.headers
        validateResponseRequestId controls received.headers id : Except Error Unit) = .ok () := by
  have hversion : validateResponseHttpVersion received.version id received.headers = .ok () := by
    rcases h.version with hv | hv <;> rw [hv] <;> rfl
  rw [hversion]
  show validateResponseRequestId controls received.headers id = .ok ()
  cases controls with
  | false => rfl
  | true =>
    obtain ⟨v, hv, hstr⟩ := hsealed rfl
    refine validateResponseRequestId_readsAs hid ⟨v, ?_, hstr⟩
    rw [h.headers requestId (by simp [hv]), hv]

/-- The headers that arrive are those of the service. -/
theorem headers_delivered (h : DeliveredResponse sent suppressed frames received)
    (hencodes : Encodes response produces suppressed encoded)
    (hsent : ∀ name, name ≠ requestId → sent.headers.getAll name = encoded.headers.getAll name)
    {name : HeaderName} (hname : name ∉ controlHeaders) (hka : name ≠ keepAlive)
    (hne : response.headers.getAll name ≠ []) :
    (responseHeadersWithoutControl (responseHeadersForDecoder received.headers)).getAll name =
      response.headers.getAll name := by
  have hid : name ≠ requestId := by
    rintro rfl
    exact hname (by decide)
  have htype : name ≠ contentType := by
    rintro rfl
    exact hname (by decide)
  have hwritten : sent.headers.getAll name = response.headers.getAll name := by
    rw [hsent name hid, hencodes.headers name htype, getAll_withoutControl _ hname hka]
  rw [getAll_withoutControl _ hname hka, getAll_forDecoder _ (.inl hname) hka,
    h.headers name (by rwa [hwritten]), hwritten]

theorem parseResponseContentLength_delivered (h : DeliveredResponse sent false frames received)
    (hlt : sent.body.bytes.length < 2 ^ 64) :
    ∃ length, parseResponseContentLength received.headers id = .ok length ∧
      ∀ n ∈ length, n = sent.body.bytes.length := by
  unfold parseResponseContentLength
  rcases h.length rfl with hnone | ⟨v, hone, hv⟩
  · rw [hnone]
    exact ⟨none, rfl, by simp⟩
  · rw [hone]
    refine ⟨some sent.body.bytes.length, ?_, by simp⟩
    simp only [hv, Option.bind_some, parseUnsigned_decimal hlt]

end

/-! ## Holding the decoded body -/

theorem holdDecoded_ends (bytes : List UInt8) (permit maxBody : Nat) :
    (holdDecoded bytes permit maxBody).Ends fun r => ∀ body, r = some (.ok body) →
      body.bytes = bytes ∧ bytes.length ≤ maxBody := by
  unfold holdDecoded holdDecodedResponseBudget
  rw [Prog.ends_bind]
  dsimp only
  split
  · rintro body ⟨⟩
  · rename_i hmax
    have hok : ∀ body, (some (.ok ⟨bytes, some permit⟩) : Awaited Body) = some (.ok body) →
        body.bytes = bytes ∧ bytes.length ≤ maxBody := by
      rintro body ⟨⟩
      exact ⟨rfl, Nat.not_lt.mp hmax⟩
    intro n
    dsimp only
    split
    · intro ok
      cases ok with
      | true => exact hok
      | false => rintro body ⟨⟩
    · exact hok

section

variable {limits : Nat → Fin Usize.size} {L : Ledger} {b n maxBody : Nat}

theorem holdDecoded_accepts (held : List Nat) {bytes : List UInt8} (hmax : bytes.length ≤ maxBody)
    (hroom : L.used b + max n bytes.length ≤ limits b) : ∃ n',
      (holdDecoded bytes L.permits.length maxBody).exec limits (L.opened b n)
        (L.permits.length :: held) = some (some (.ok ⟨bytes, some L.permits.length⟩),
          L.opened b n', L.permits.length :: held) := by
  unfold holdDecoded holdDecodedResponseBudget
  rw [Prog.exec_bind]
  dsimp only
  rw [if_neg (Nat.not_lt.mpr hmax), exec_bytes_opened List.mem_cons_self]
  by_cases hmissing : bytes.length - n > 0
  · rw [if_pos hmissing, exec_grow_of_le List.mem_cons_self (by omega)]
    exact ⟨_, rfl⟩
  · rw [if_neg hmissing]
    exact ⟨_, rfl⟩

end

/-! ## Decoding a success -/

section

variable {limits : Nat → Fin Usize.size} {L : Ledger} {held : List Nat} {b maxBody : Nat}
  {response : ResponseHead} {events : List BodyEvent} {bytes : List UInt8}

/-- `NO_CONTENT` and `RESET_CONTENT` have no body. -/
def isEmptyStatus (status : StatusCode) : Bool := status.code = 204 || status.code = 205

/-- Read alone, the response is decoded to these bytes. -/
def DecodesTo (limits : Nat → Fin Usize.size) (L : Ledger) (held : List Nat)
    (p : Prog (Awaited Body)) (bytes : List UInt8) : Prop :=
  ∃ body L' held', p.exec limits L held = some (some (.ok body), L', held') ∧ body.bytes = bytes

theorem decodesTo_head (hchecked : response.checked = .ok ()) (hhead : response.head = true)
    (hsuccess : response.status.isSuccess = true) (hroom : L.used b ≤ limits b) :
    DecodesTo limits L held (decodeHttpResponse response events maxBody b) nullBytes := by
  unfold decodeHttpResponse
  rw [hchecked]
  dsimp only
  rw [if_pos hhead, if_pos hsuccess]
  unfold DecodesTo
  rw [exec_tryReserve_of_le (by simpa using hroom)]
  exact ⟨_, _, _, rfl, rfl⟩

theorem holdDecoded_decodesTo_iff (held : List Nat) {n : Nat}
    (hroom : L.used b + max n bytes.length ≤ limits b) :
    DecodesTo limits (L.opened b n) (L.permits.length :: held)
      (holdDecoded bytes L.permits.length maxBody) bytes ↔ bytes.length ≤ maxBody := by
  constructor
  · rintro ⟨body, L', held', hx, -⟩
    exact ((holdDecoded_ends bytes L.permits.length maxBody).exec hx body rfl).2
  · intro hmax
    obtain ⟨n', hx⟩ := holdDecoded_accepts held hmax hroom
    exact ⟨_, _, _, hx, rfl⟩

theorem decodesTo_null_iff (hchecked : response.checked = .ok ()) (hhead : response.head = false)
    (hstatus : isEmptyStatus response.status = true)
    (hdecode : response.decode nullBytes = .ok nullBytes)
    (hroom : L.used b + nullBytes.length ≤ limits b) :
    DecodesTo limits L held (decodeHttpResponse response events maxBody b) nullBytes ↔
      nullBytes.length ≤ maxBody := by
  have hmax : L.used b + max 0 nullBytes.length ≤ limits b := by
    rwa [Nat.zero_max]
  rw [← holdDecoded_decodesTo_iff held hmax]
  unfold decodeHttpResponse
  rw [hchecked]
  dsimp only
  rw [if_neg (by simp [hhead]), if_pos (show (_ || _) = true from hstatus), hdecode]
  unfold DecodesTo
  dsimp only
  rw [exec_tryReserve_of_le (by omega)]

theorem decodesTo_body_iff (hchecked : response.checked = .ok ()) (hhead : response.head = false)
    (hstatus : isEmptyStatus response.status = false)
    (hsuccess : response.status.isSuccess = true) {length : Option Nat}
    (hlength : response.contentLength = .ok length) {frames : List Frame}
    (hevents : events = frames.map Frame.event) (hsame : ∀ n ∈ length, n = (assemble frames).length)
    (hdecode : ∀ bytes', response.decode (assemble frames) = .ok bytes' → bytes' = assemble frames)
    (hroom : L.used b + chunked (assemble frames).length ≤ limits b) :
    DecodesTo limits L held (decodeHttpResponse response events maxBody b) (assemble frames) ↔
      (assemble frames).length ≤ maxBody ∧
        response.decode (assemble frames) = .ok (assemble frames) := by
  have hreserved : L.used b + reservation (length.getD 0) (assemble frames).length ≤ limits b :=
    (Nat.add_le_add_left (reservation_le_chunked hsame) _).trans hroom
  have hcovers : L.used b + max (reservation (length.getD 0) (assemble frames).length)
      (assemble frames).length ≤ limits b := by
    rwa [Nat.max_eq_left (le_reservation _ _)]
  unfold decodeHttpResponse DecodesTo
  rw [hchecked]
  dsimp only
  rw [if_neg (by simp [hhead]), if_neg (by
    rw [show (_ || _) = false from hstatus]
    decide), hlength]
  dsimp only
  rw [Prog.exec_bind, hevents]
  by_cases hmax : (assemble frames).length ≤ maxBody
  · rw [readBodyWithRole_accepts frames hmax hsame hreserved]
    dsimp only [Option.bind_some]
    rw [if_pos hsuccess]
    cases hd : response.decode (assemble frames) with
    | error e =>
      simp only [reduceCtorEq, and_false, iff_false]
      rintro ⟨body, L', held', hx, -⟩
      have hends : (abandon L.permits.length (some (.error e)) : Prog (Awaited Body)).Ends
          fun r => ∀ body, r ≠ some (.ok body) := by
        rintro body ⟨⟩
      exact hends.exec hx body rfl
    | ok bytes' =>
      obtain rfl := hdecode bytes' hd
      rw [and_iff_left rfl]
      exact holdDecoded_decodesTo_iff held hcovers
  · obtain ⟨r, hr, hspec⟩ := @readBodyWithRole_outcome limits b L held length maxBody
      (.response response.requestId) frames
    simp only [hmax, false_and, iff_false]
    generalize (readBodyWithRole (frames.map Frame.event) length maxBody b
      (.response response.requestId)).exec limits L held = x at hr
    cases hr with
    | rejected e hL =>
      rintro ⟨body, L', held', ⟨⟩, -⟩
    | accepted bytes n =>
      obtain ⟨hbytes, hfits, -⟩ := hspec _ rfl
      rw [hbytes] at hfits
      exact absurd hfits hmax

end

/-! ## Responses that arrive -/

section

variable {parseMime : Text → Option Mime} {crates : Crates} {now : Nat} {method : Method}
  {produces id : Text} {controls : Bool} {maxBody b : Nat} {response : Response}
  {encoded sent : HttpResponse} {frames : List Frame} {received : ReceivedResponse}
  {limits : Nat → Fin Usize.size} {L : Ledger} {held : List Nat} {suppressed : Bool}

/-- The results of `receiveResponse` are those of `decode_http_response`. -/
theorem receiveResponse_exec_ok_iff (out : Response) (L' : Ledger) (held' : List Nat) :
    (receiveResponse parseMime crates now method produces id controls maxBody b received).exec
        limits L held = some (some (.ok out), L', held') ↔
      out.status = received.status ∧
      out.headers = responseHeadersWithoutControl (responseHeadersForDecoder received.headers) ∧
      (decodeHttpResponse (responseHead parseMime crates now method produces id controls received)
        received.body maxBody b).exec limits L held = some (some (.ok out.body), L', held') := by
  unfold receiveResponse
  rw [Prog.exec_bind]
  generalize (decodeHttpResponse _ received.body maxBody b).exec limits L held = x
  constructor
  · intro h
    obtain ⟨⟨r, L₁, held₁⟩, rfl, hx⟩ := Option.bind_eq_some_iff.mp h
    rcases r with _ | e | body
    · cases hx
    · cases hx
    · cases hx
      exact ⟨rfl, rfl, rfl⟩
  · rintro ⟨hstatus, hheaders, rfl⟩
    rw [Option.bind_some, ← hstatus, ← hheaders]
    rfl

/-- The declared media type is what arrives. -/
theorem decode_delivered (hdelivered : DeliveredResponse sent false frames received)
    (hencodes : Encodes response produces false encoded)
    (hsent : ∀ name, name ≠ requestId → sent.headers.getAll name = encoded.headers.getAll name)
    (hempty : parseMime [] = none) (hproduces : isJsonMediaType parseMime produces = true)
    (hstatus : isEmptyStatus received.status = false) (bytes bytes' : List UInt8) :
    (responseHead parseMime crates now method produces id controls received).decode bytes =
        .ok bytes' ↔ produces.all isVisibleChar = true ∧ bytes' = bytes := by
  obtain ⟨value, hvalue, htype⟩ := hencodes.type rfl
  have hreceived : (responseHeadersForDecoder received.headers).getAll contentType = [value] := by
    rw [getAll_forDecoder _ (.inr rfl) (by decide), hdelivered.headers contentType, hsent _
      (by decide), htype]
    rw [hsent _ (by decide), htype]
    exact List.cons_ne_nil _ _
  have hempty' : ¬ (received.status.code = 204 ∨ received.status.code = 205) := by
    simpa [isEmptyStatus] using hstatus
  show (decodeJsonResponse parseMime received.status _ produces id bytes).mapError _ = _ ↔ _
  unfold decodeJsonResponse validateJsonResponseContentType
  rw [if_neg hempty', hreceived, ← mediaTypeMatches_iff hempty hvalue hproduces]
  dsimp only
  by_cases hmatches : mediaTypeMatches parseMime value produces = true
  · rw [if_pos hmatches]
    constructor
    · rintro ⟨⟩
      exact ⟨hmatches, rfl⟩
    · rintro ⟨-, rfl⟩
      rfl
  · rw [if_neg hmatches]
    constructor
    · rintro ⟨⟩
    · rintro ⟨h, -⟩
      exact absurd h hmatches

/-- The body that a client can be sent. -/
def BodyFits (method : Method) (produces : Text) (maxBody : Nat) (response : Response) :
    Prop :=
  if method = .head then True
  else if isEmptyStatus response.status then nullBytes.length ≤ maxBody
  else response.body.bytes.length ≤ maxBody ∧ produces.all isVisibleChar = true

/-- What is left of a response that arrives is its body. -/
theorem receives_iff_decodesTo (hencodes : Encodes response produces suppressed encoded)
    (hseal : sealResponse encoded id controls = some sent)
    (hdelivered : DeliveredResponse sent suppressed frames received) :
    (∃ out L' held', (receiveResponse parseMime crates now method produces id controls maxBody b
        received).exec limits L held = some (some (.ok out), L', held') ∧
      ResponseArrives response suppressed out) ↔
    DecodesTo limits L held (decodeHttpResponse (responseHead parseMime crates now method produces
      id controls received) received.body maxBody b)
      (if suppressed then nullBytes else response.body.bytes) := by
  obtain ⟨hstatus, -, hsent, -⟩ := sealResponse_eq_some hseal
  constructor
  · rintro ⟨out, L', held', hx, harrives⟩
    obtain ⟨-, -, hx⟩ := (receiveResponse_exec_ok_iff out L' held').mp hx
    exact ⟨out.body, L', held', hx, harrives.body⟩
  · rintro ⟨body, L', held', hx, hb⟩
    refine ⟨⟨received.status, _, body⟩, L', held',
      (receiveResponse_exec_ok_iff _ L' held').mpr ⟨rfl, rfl, hx⟩, ?_, fun name hname hka hne => ?_,
      hb⟩
    · exact hdelivered.status.trans (hstatus.trans hencodes.status)
    · exact headers_delivered hdelivered hencodes hsent hname hka hne

/-- The body of a response is decoded if the client can be sent it. -/
theorem decodesTo_iff_bodyFits
    (hencodes : Encodes response produces (response.suppressesBody (method = .head)) encoded)
    (hseal : sealResponse encoded id controls = some sent)
    (hdelivered : DeliveredResponse sent (response.suppressesBody (method = .head)) frames received)
    (hsuccess : response.status.isSuccess = true) (hid : requestIdIsValid id = true)
    (hempty : parseMime [] = none) (hproduces : isJsonMediaType parseMime produces = true)
    (hroom : L.used b + (chunked response.body.bytes.length + nullBytes.length) ≤ limits b) :
    DecodesTo limits L held (decodeHttpResponse (responseHead parseMime crates now method produces
        id controls received) received.body maxBody b)
      (if response.suppressesBody (method = .head) then nullBytes else response.body.bytes) ↔
    BodyFits method produces maxBody response := by
  obtain ⟨hstatus, hbody, hsent, hecho⟩ := sealResponse_eq_some hseal
  have hreceived : received.status = response.status :=
    hdelivered.status.trans (hstatus.trans hencodes.status)
  have hbytes : assemble frames = if response.suppressesBody (method = .head) then []
      else response.body.bytes := by
    rw [hdelivered.body, hbody, hencodes.body]
  have hchecked : (responseHead parseMime crates now method produces id controls received).checked =
      .ok () := checked_delivered hdelivered hid fun hc => hecho hc hid
  have hstatus' : (responseHead parseMime crates now method produces id controls received).status =
      response.status := hreceived
  have hhead' : (responseHead parseMime crates now method produces id controls received).head =
      decide (method = .head) := rfl
  unfold BodyFits
  by_cases hhead : method = .head
  · have hsuppressed : response.suppressesBody (method = .head) = true := by
      simp [Response.suppressesBody, hhead]
    rw [if_pos hhead, hsuppressed, if_pos rfl, iff_true]
    exact decodesTo_head hchecked (hhead'.trans (decide_eq_true hhead)) (hstatus' ▸ hsuccess)
      (by omega)
  · have hsame : response.suppressesBody (method = .head) = isEmptyStatus response.status := by
      simp [Response.suppressesBody, isEmptyStatus, hhead]
    rw [if_neg hhead, hsame]
    by_cases hnone : isEmptyStatus response.status = true
    · rw [if_pos hnone, if_pos hnone]
      refine decodesTo_null_iff hchecked (hhead'.trans (decide_eq_false hhead)) (hstatus' ▸ hnone) ?_
        (by omega)
      show (decodeJsonResponse parseMime received.status _ produces id nullBytes).mapError _ = _
      unfold decodeJsonResponse
      rw [if_pos]
      · rfl
      · simpa [isEmptyStatus, hreceived] using hnone
    · rw [if_neg hnone, if_neg hnone]
      rw [Bool.not_eq_true] at hnone
      rw [hsame, hnone] at hdelivered hencodes hbytes
      rw [if_neg Bool.false_ne_true] at hbytes
      have hdecode := fun bytes bytes' => @decode_delivered parseMime crates now method produces id
        controls response encoded sent frames received hdelivered hencodes hsent hempty hproduces
        (hreceived ▸ hnone) bytes bytes'
      rw [← hbytes] at hroom ⊢
      obtain ⟨length, hlength, hn⟩ := parseResponseContentLength_delivered hdelivered (by
        rw [← hdelivered.body]
        exact (le_chunked _).trans_lt (lt_of_room ((Nat.add_le_add_left (Nat.le_add_right _ _)
          _).trans hroom)))
      have hfits : L.used b + chunked (assemble frames).length ≤ limits b :=
        (Nat.add_le_add_left (Nat.le_add_right _ _) _).trans hroom
      rw [decodesTo_body_iff hchecked (hhead'.trans (decide_eq_false hhead)) (hstatus' ▸ hnone)
        (hstatus' ▸ hsuccess) hlength hdelivered.events (by rw [hdelivered.body]; exact hn)
        (fun bytes' h => ((hdecode _ bytes').mp h).2) hfits, hdecode]
      simp

/-- **A success arrives** with its status, its headers and its body exactly when the client
takes a body of that length and the media type is text, if the client's byte budget has room for
it; a body that is not sent is `null`. -/
theorem response_arrives_iff {maxServer serverBudget : Nat} {serverLimits : Nat → Fin Usize.size}
    {S S' : Ledger} {serverHeld serverHeld' : List Nat}
    (hencode : (encodeSuccess response produces (method = .head) maxServer serverBudget).exec
      serverLimits S serverHeld = some (.ok encoded, S', serverHeld'))
    (hseal : sealResponse encoded id controls = some sent)
    (hdelivered : DeliveredResponse sent (response.suppressesBody (method = .head)) frames received)
    (hsuccess : response.status.isSuccess = true) (hid : requestIdIsValid id = true)
    (hempty : parseMime [] = none) (hproduces : isJsonMediaType parseMime produces = true)
    (hroom : L.used b + (chunked response.body.bytes.length + nullBytes.length) ≤ limits b) :
    (∃ out L' held', (receiveResponse parseMime crates now method produces id controls maxBody b
        received).exec limits L held = some (some (.ok out), L', held') ∧
      ResponseArrives response (response.suppressesBody (method = .head)) out) ↔
    BodyFits method produces maxBody response := by
  have hencodes := (encodeSuccess_ends _ _ _ _ _).exec hencode encoded rfl
  rw [receives_iff_decodesTo hencodes hseal hdelivered]
  exact decodesTo_iff_bodyFits hencodes hseal hdelivered hsuccess hid hempty hproduces hroom

end

/-! ## A created user -/

def createdBody : List UInt8 := utf8 "\x7b\"id\":7\x7d".toList

/-- The response of a service; its `Keep-Alive` is not sent. -/
def createdResponse : Response where
  status := ⟨201, by decide⟩
  headers := ⟨[(keepAlive, ⟨utf8 "1".toList, by decide⟩), (accept, ⟨utf8 "text".toList, by decide⟩)]⟩
  body := ⟨createdBody, none⟩

def jsonOnly (text : Text) : Option Mime :=
  if text = "application/json".toList then some ⟨"application".toList, "json".toList, none⟩ else none

def createdHeaders : HeaderMap :=
  ⟨[(accept, ⟨utf8 "text".toList, (rfl : true = true)⟩),
    (contentType, ⟨utf8 "application/json".toList, (rfl : true = true)⟩)]⟩

def createdSent : HttpResponse where
  status := ⟨201, by decide⟩
  headers := createdHeaders.insert requestId ⟨utf8 "request-1".toList, by decide⟩
  body := ⟨createdBody, some 0⟩

/-- It comes in two frames. -/
def createdReceived : ReceivedResponse where
  status := ⟨201, by decide⟩
  version := .http11
  headers := createdSent.headers
  body := [.data (utf8 "\x7b\"id\"".toList), .trailers, .data (utf8 ":7\x7d".toList)]

theorem createdResponse_encoded {limits : Nat → Fin Usize.size} {L : Ledger} {b : Nat}
    (held : List Nat) (hroom : L.used b + 8 ≤ limits b) :
    (encodeSuccess createdResponse "application/json".toList (Method.post = .head) 64 b).exec
      limits L held = some (.ok ⟨⟨201, by decide⟩, createdHeaders,
        ⟨createdBody, some L.permits.length⟩⟩, L.opened b 8, L.permits.length :: held) := by
  unfold encodeSuccess
  show (encodeReserving createdResponse _ false 8 b).exec _ _ _ = _
  unfold encodeReserving
  rw [exec_tryReserve_of_le hroom]
  rfl

theorem response_arrives_created : ∃ out L' held',
    (receiveResponse jsonOnly jsonCrates 0 .post "application/json".toList "request-1".toList true
      64 0 createdReceived).exec (tightBudget 8192) .empty [] =
        some (some (.ok out), L', held') ∧
    ResponseArrives createdResponse false out := by
  have hseal : sealResponse ⟨⟨201, by decide⟩, createdHeaders, ⟨createdBody, some 0⟩⟩
      "request-1".toList true = some createdSent := by
    rfl
  have hdelivered : DeliveredResponse createdSent
      (createdResponse.suppressesBody (Method.post = .head))
      [some (utf8 "\x7b\"id\"".toList), none, some (utf8 ":7\x7d".toList)] createdReceived :=
    ⟨rfl, .inl rfl, fun _ _ => rfl, fun _ => .inl rfl, rfl, by decide⟩
  have hroom : Ledger.empty.used 0 + (chunked createdResponse.body.bytes.length +
      nullBytes.length) ≤ tightBudget 8192 0 := by
    decide
  have hencode := @createdResponse_encoded (tightBudget 64) .empty 0 [] (by decide)
  exact (response_arrives_iff hencode hseal hdelivered rfl rfl rfl rfl hroom).mpr
    ⟨by decide, by decide⟩

end Fusen.Server
