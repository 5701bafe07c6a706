import Fusen.Server.Pipeline

/-!
# The server's errors at the client

A client with control headers checks the request id of each response before it decodes
the error.  `reachesClient_iff`: an error reaches it if the checks of the head were
passed, where the server takes note of the id, and its details can be read.
-/

namespace Fusen.Server

open Lib Contract Wire

/-! ## Requests and responses -/

/-- The request that a server obtains; the connection may change its URI and version, and
add headers of its own. -/
structure Delivered (sent request : HttpRequest) : Prop where
  method : request.method = sent.method
  controls : ∀ name ∈ [requestId, timeoutMs, attempt, serviceGroup, serviceVersion],
    request.headers.getAll name = sent.headers.getAll name

theorem readsAs_delivered {isUri : Text → Bool} {template : RequestTemplate} {endpoint : Text}
    {version : HttpVersion} {id : Text} {remaining attemptNumber : Nat} {service : ServiceSelector}
    {sent request : HttpRequest} (hid : requestIdIsValid id = true)
    (hsent : template.toRequest isUri endpoint version id remaining attemptNumber true service =
      .ok sent) (h : Delivered sent request) : ReadsAs request.headers requestId (some id) := by
  obtain ⟨headers, hinsert, hcontrols⟩ :=
    insertControls_sent template.valid hid remaining attemptNumber service
  unfold RequestTemplate.toRequest at hsent
  cases huri : endpointUri isUri endpoint template.pathAndQuery with
  | error e =>
    rw [huri] at hsent
    cases hsent
  | ok uri =>
    simp only [huri, bind, Except.bind, if_true, hinsert] at hsent
    cases hsent
    exact hcontrols.id.frame (h.controls _ (by decide))

theorem hasInvocationControls_of_readsAs {headers : HeaderMap} {id : Text}
    (h : ReadsAs headers requestId (some id)) : hasInvocationControls headers = true := by
  obtain ⟨v, hv, -⟩ := h
  have hkey : headers.containsKey requestId = true := by
    by_contra hnot
    rw [Bool.not_eq_true, HeaderMap.containsKey_eq_false_iff, hv] at hnot
    cases hnot
  unfold hasInvocationControls
  rw [List.any_cons, hkey, Bool.true_or]

theorem validatedRequestIdHeader_of_readsAs {headers : HeaderMap} {id : Text}
    (hid : requestIdIsValid id = true) (h : ReadsAs headers requestId (some id)) :
    validatedRequestIdHeader headers = some id := by
  obtain ⟨v, hv, hstr⟩ := h
  unfold validatedRequestIdHeader
  rw [hv]
  simp only [hstr, Option.filter_some, hid, if_true]

theorem parseRequestControl_id {headers : HeaderMap} {id : Text} (hid : requestIdIsValid id = true)
    (h : ReadsAs headers requestId (some id)) {localTimeout : Nat} {freshId : Text}
    {control : RequestControl}
    (hparse : parseRequestControl headers localTimeout freshId = .ok control) :
    control.requestId = id := by
  obtain ⟨v, hone, hstr⟩ := oneHeader_readsAs h
  have hparsed : parseRequestId freshId (some v) = .ok id := by
    simp only [parseRequestId, hstr, validateRequestId, if_pos hid]
    rfl
  unfold parseRequestControl at hparse
  rw [hone] at hparse
  simp only [bind, Except.bind, hparsed] at hparse
  iterate 4
    split at hparse
    · cases hparse
  cases hparse
  rfl

/-- The client's check of a response. -/
theorem validateResponseRequestId_readsAs {headers : HeaderMap} {id : Text}
    (hid : requestIdIsValid id = true) (h : ReadsAs headers requestId (some id)) :
    validateResponseRequestId true headers id = .ok () := by
  obtain ⟨v, hv, hstr⟩ := h
  unfold validateResponseRequestId
  rw [if_neg (by decide), hv]
  simp only [hstr, Option.filter_some, hid, if_true]

theorem validateResponseRequestId_missing {headers : HeaderMap} {id : Text}
    (h : ReadsAs headers requestId none) : validateResponseRequestId true headers id ≠ .ok () := by
  have hnone : headers.getAll requestId = [] := h
  unfold validateResponseRequestId
  rw [if_neg (by decide), hnone]
  nofun

/-! ## The request id of an encoded error -/

section

variable {crates : Crates} {e : Error} {id : Text} {instance_ : Option Text} {r : HttpResponse}

theorem encodeProblem_echoes (hid : requestIdIsValid id = true)
    (h : encodeProblem crates e id instance_ true = some r) :
    ReadsAs r.headers requestId (some id) := by
  obtain ⟨v, hv, hstr⟩ := fromStr_plain (requestId_plain hid).2
  simp only [encodeProblem, Option.bind_eq_bind, Option.bind_eq_some_iff, insertRequestId,
    if_true, hv, Option.map_some, Option.some.injEq] at h
  obtain ⟨body, -, headers, -, sent, rfl, rfl⟩ := h
  exact ⟨v, by rw [HeaderMap.getAll_insert, if_pos rfl], hstr⟩

theorem getAll_responseHeadersWithoutControl (headers : HeaderMap) :
    (responseHeadersWithoutControl headers).getAll requestId = [] := by
  unfold responseHeadersWithoutControl
  rw [HeaderMap.getAll_remove, if_neg (by decide)]
  unfold HeaderMap.getAll
  rw [entries_foldl_remove, List.map_eq_nil_iff, List.filter_filter, List.filter_eq_nil_iff]
  rintro ⟨name, v⟩ - h
  rw [Bool.and_eq_true, decide_eq_true_eq] at h
  obtain ⟨hname, hnot⟩ := h
  have hkept : (!controlHeaders.contains name) = true := hnot
  rw [show name = requestId from hname] at hkept
  exact absurd hkept (by decide)

theorem problemHeaders_anonymous {headers : HeaderMap} (h : problemHeaders e = some headers) :
    headers.getAll requestId = [] := by
  have hbase : (if e.origin = .local_ then responseHeadersWithoutControl e.headers
      else .empty).getAll requestId = [] := by
    split
    · exact getAll_responseHeadersWithoutControl _
    · rfl
  simp only [problemHeaders] at h
  cases hdelay : localRetryDelay e with
  | none =>
    rw [hdelay] at h
    cases h
    exact hbase
  | some delay =>
    rw [hdelay] at h
    obtain ⟨v, -, rfl⟩ := Option.map_eq_some_iff.mp h
    rw [HeaderMap.getAll_insert, if_neg (by decide)]
    exact hbase

theorem encodeProblem_anonymous (h : encodeProblem crates e id instance_ false = some r) :
    ReadsAs r.headers requestId none := by
  simp only [encodeProblem, Option.bind_eq_bind, Option.bind_eq_some_iff, insertRequestId,
    Bool.false_eq_true, if_false, Option.some.injEq] at h
  obtain ⟨body, -, headers, hheaders, sent, rfl, rfl⟩ := h
  show (headers.insert contentType problemContentType).getAll requestId = []
  rw [HeaderMap.getAll_insert, if_neg (by decide)]
  exact problemHeaders_anonymous hheaders

end

/-! ## What the client makes of a response -/

/-- **A response brings an error to the client**: its request id is accepted, and unless
it answers a `HEAD` request it is decoded as an error with the same code. -/
def ReachesClient (crates : Crates) (now : Nat) (id : Text) (method : Method) (e : Error)
    (response : HttpResponse) : Prop :=
  validateResponseRequestId true response.headers id = .ok () ∧
  (method ≠ .head →
    let headers := responseHeadersForDecoder response.headers
    let received := decodeProblem crates now response.status id response.body.bytes headers true
    received.code = e.code ∧ ∀ e', ProtocolError id e' → received ≠ e'.withHeaders headers)

/-- A response with this error and this request id. -/
structure Echoes (crates : Crates) (e : Error) (id : Text) (instance_ : Option Text)
    (response : HttpResponse) : Prop where
  status : response.status = sentStatus e
  echoed : ReadsAs response.headers requestId (some id)
  body : response.body.bytes = (sentProblem crates e id instance_ true).bytes

section

variable {crates : Crates} {now : Nat} {e : Error} {id : Text} {instance_ : Option Text}
  {response : HttpResponse}

theorem echoes_encodeProblem (hcrates : crates.Documented) (hid : requestIdIsValid id = true) :
    ∃ response, encodeProblem crates e id instance_ true = some response ∧
      Echoes crates e id instance_ response := by
  obtain ⟨headers, hencode, -⟩ := encodeProblem_sent e instance_ true hcrates hid
  exact ⟨_, hencode, rfl, encodeProblem_echoes hid hencode, rfl⟩

theorem Echoes.seal (h : Echoes crates e id instance_ response) (hid : requestIdIsValid id = true) :
    ∃ sealed, sealResponse response id true = some sealed ∧
      Echoes crates e id instance_ sealed := by
  obtain ⟨v, hv, hstr⟩ := fromStr_plain (requestId_plain hid).2
  refine ⟨{ response with headers := response.headers.insert requestId v }, ?_, h.status, ?_,
    h.body⟩
  · unfold sealResponse
    rw [if_pos rfl, hv]
    rfl
  · exact ⟨v, by rw [HeaderMap.getAll_insert, if_pos rfl], hstr⟩

/-- The response of a server to a request with another method than `HEAD`. -/
theorem Echoes.reachesClient_iff (hcrates : crates.Documented) (he : e.Sound)
    (hid : requestIdIsValid id = true) (h : Echoes crates e id instance_ response) (method : Method) :
    ReachesClient crates now id method e
        (if method = .head then { response with body := ⟨[], none⟩ } else response) ↔
      (method ≠ .head → Unreadable crates e id instance_ true → e.code = remoteHttpError) := by
  unfold ReachesClient
  by_cases hhead : method = .head
  · rw [if_pos hhead]
    exact iff_of_true ⟨validateResponseRequestId_readsAs hid h.echoed, fun hne => absurd hhead hne⟩
      fun hne => absurd hhead hne
  · rw [if_neg hhead, and_iff_right (validateResponseRequestId_readsAs hid h.echoed),
      imp_iff_right hhead, imp_iff_right hhead, h.status, h.body]
    rcases @decodeProblem_encoded crates now e id instance_ true
      (responseHeadersForDecoder response.headers) hcrates he hid with
      ⟨hunreadable, heq⟩ | ⟨hreadable, hreceived⟩
    · rw [imp_iff_right hunreadable]
      simp only [heq]
      refine ⟨fun hreaches => hreaches.1.symm, fun hcode => ⟨hcode.symm, fun e' he' hsame => ?_⟩⟩
      exact code_of_protocolError he' (congrArg Error.code hsame).symm
    · refine iff_of_true ⟨hreceived.code, fun e' he' => ?_⟩ fun hun => absurd hun hreadable
      exact not_protocolError_of_received hreceived he'

end

/-! ## The pipeline -/

theorem runMatched_failed {request : HttpRequest} {control : RequestControl} {controls : Bool}
    {env : Environment} {route : MatchedIdentity} {e : Error} {id : Text}
    (h : runMatched request control controls env route = .failed e id) : id = control.requestId := by
  unfold runMatched at h
  iterate 3
    split at h
    · cases h
  split at h
  · cases h
  · cases h
  · split at h <;> cases h <;> rfl

theorem runControlled_failed {request : HttpRequest} {control : RequestControl} {controls : Bool}
    {env : Environment} {e : Error} {id : Text}
    (h : runControlled request control controls env = .failed e id) : id = control.requestId := by
  unfold runControlled at h
  split at h
  · cases h
  · split at h
    · cases h
    · cases h
    · cases h
    · split at h
      · cases h
      · cases h
      · exact runMatched_failed h

section

variable {app : HttpApp} {crates : Crates} {now : Nat} {request : HttpRequest} {e : Error}
  {id path freshId fallbackId : Text} {env : Environment}

/-- The server takes note of the request id once the head is accepted. -/
theorem run_controlled (hcontrols : app.invocationControls = true)
    (hid : requestIdIsValid id = true) (h : ReadsAs request.headers requestId (some id))
    (haccept : app.acceptHead request = .ok ()) :
    (app.run request freshId env).2 = ⟨some id, true⟩ ∧
      ∀ e id', (app.run request freshId env).1 = .failed e id' → id' = id := by
  unfold HttpApp.run
  rw [haccept, hcontrols]
  simp only [hasInvocationControls_of_readsAs h, Bool.not_true, Bool.and_false, if_true,
    validatedRequestIdHeader_of_readsAs hid h]
  rw [if_neg Bool.false_ne_true]
  cases hparse : parseRequestControl request.headers app.requestTimeout freshId with
  | error e => exact ⟨rfl, nofun⟩
  | ok control =>
    have hcontrol := parseRequestControl_id hid h hparse
    refine ⟨congrArg (fun id => Progress.mk (some id) true) hcontrol, fun e id' hfailed => ?_⟩
    exact (runControlled_failed hfailed).trans hcontrol

theorem run_rejected {rejection : Error} (haccept : app.acceptHead request = .error rejection) :
    app.run request freshId env = (.refused rejection, ⟨none, false⟩) := by
  unfold HttpApp.run
  rw [haccept]

/-- What the server sends for the error that the pipeline ends with. -/
theorem call_echoes (hcrates : crates.Documented) (hcontrols : app.invocationControls = true)
    (hid : requestIdIsValid id = true) (hreads : ReadsAs request.headers requestId (some id))
    (haccept : app.acceptHead request = .ok ())
    (hend : (app.run request freshId env).1.error = some e) :
    ∃ instance_ response, app.call crates request path freshId fallbackId env =
        some (if request.method = .head then { response with body := ⟨[], none⟩ } else response) ∧
      Echoes crates e id instance_ response ∧
      (e.kind = .application → instance_ = some path) := by
  obtain ⟨hprogress, hfailed⟩ :=
    @run_controlled app request id freshId env hcontrols hid hreads haccept
  unfold HttpApp.call
  generalize app.run request freshId env = outcome at hprogress hfailed hend
  obtain ⟨ending, progress⟩ := outcome
  cases hprogress
  cases ending with
  | response r => cases hend
  | failed failure id' =>
    cases hend
    cases hfailed e id' rfl
    obtain ⟨encoded, hencode, hechoes⟩ := @echoes_encodeProblem crates e id (some path) hcrates hid
    obtain ⟨sealed, hseal, hsealed⟩ := hechoes.seal hid
    refine ⟨some path, sealed, ?_, hsealed, fun _ => rfl⟩
    simp only [HttpApp.respond, hencode, Option.bind_some, hseal, Option.map_some]
  | refused refusal =>
    cases hend
    obtain ⟨encoded, hencode, hechoes⟩ := @echoes_encodeProblem crates e id (some path) hcrates hid
    refine ⟨some path, encoded, ?_, hechoes, fun _ => rfl⟩
    simp only [HttpApp.respond, Option.getD_some, hencode, Option.map_some]
  | panicked =>
    cases hend
    obtain ⟨encoded, hencode, hechoes⟩ :=
      @echoes_encodeProblem crates requestPanicked id none hcrates hid
    refine ⟨none, encoded, ?_, hechoes, nofun⟩
    simp only [HttpApp.respond, validatedRequestIdHeader_of_readsAs hid hreads, hcontrols,
      hasInvocationControls_of_readsAs hreads, Option.getD_some, Bool.and_self, hencode,
      Option.map_some]

/-- A rejected head is answered without a request id. -/
theorem call_anonymous {rejection : Error} (haccept : app.acceptHead request = .error rejection)
    {response : HttpResponse}
    (h : app.call crates request path freshId fallbackId env = some response) :
    ReadsAs response.headers requestId none := by
  unfold HttpApp.call at h
  rw [run_rejected haccept] at h
  obtain ⟨encoded, hencode, rfl⟩ := Option.map_eq_some_iff.mp h
  have hanonymous := encodeProblem_anonymous hencode
  split
  · exact hanonymous
  · exact hanonymous

end

/-! ## Every error of the pipeline -/

section

variable (app : HttpApp) (crates : Crates) (now : Nat) (request : HttpRequest)
  (path freshId fallbackId : Text) (env : Environment) (id : Text) (e : Error)

/-- The response of the server to this request brings the error to the client. -/
def CallReaches : Prop :=
  ∃ response, app.call crates request path freshId fallbackId env = some response ∧
    ReachesClient crates now id request.method e response

/-- The head is accepted and the error can be read back. -/
def Reachable : Prop :=
  app.acceptHead request = .ok () ∧
    (request.method ≠ .head → Unreadable crates e id (some path) true → e.code = remoteHttpError)

end

section

variable {app : HttpApp} {crates : Crates} {now : Nat} {request : HttpRequest}
  {path freshId fallbackId : Text} {env : Environment} {id : Text} {e : Error}

theorem callReaches_of_accepted (hcrates : crates.Documented)
    (hcontrols : app.invocationControls = true) (hid : requestIdIsValid id = true)
    (hreads : ReadsAs request.headers requestId (some id)) (he : e.Sound)
    (haccept : app.acceptHead request = .ok ())
    (hend : (app.run request freshId env).1.error = some e) :
    CallReaches app crates now request path freshId fallbackId env id e ↔
      (request.method ≠ .head → Unreadable crates e id (some path) true →
        e.code = remoteHttpError) := by
  obtain ⟨instance_, response, hcall, hechoes, hinstance⟩ :=
    @call_echoes app crates request e id path freshId fallbackId env hcrates hcontrols hid hreads
      haccept hend
  have hsame : Unreadable crates e id instance_ true ↔ Unreadable crates e id (some path) true := by
    by_cases hkind : e.kind = .application
    · rw [hinstance hkind]
    · exact iff_of_false (fun h => hkind h.1) fun h => hkind h.1
  rw [← hsame, ← hechoes.reachesClient_iff hcrates he hid request.method]
  unfold CallReaches
  rw [hcall]
  constructor
  · rintro ⟨sent, hsent, hreaches⟩
    cases hsent
    exact hreaches
  · intro hreaches
    exact ⟨_, rfl, hreaches⟩

theorem not_callReaches_of_rejected {rejection : Error}
    (haccept : app.acceptHead request = .error rejection) :
    ¬ CallReaches app crates now request path freshId fallbackId env id e := by
  rintro ⟨response, hcall, hrequestId, -⟩
  exact validateResponseRequestId_missing (call_anonymous haccept hcall) hrequestId

theorem callReaches_iff (hcrates : crates.Documented) (hcontrols : app.invocationControls = true)
    (hid : requestIdIsValid id = true) (hreads : ReadsAs request.headers requestId (some id))
    (he : e.Sound) (hend : (app.run request freshId env).1.error = some e) :
    CallReaches app crates now request path freshId fallbackId env id e ↔
      Reachable app crates request path id e := by
  unfold Reachable
  cases haccept : app.acceptHead request with
  | error rejection =>
    exact iff_of_false (not_callReaches_of_rejected haccept) fun h => nomatch h.1
  | ok u =>
    rw [callReaches_of_accepted hcrates hcontrols hid hreads he haccept hend]
    exact ⟨fun h => ⟨rfl, h⟩, fun h => h.2⟩

end

/-- **Which errors of the server reach the client**: all behind the checks of the head,
but for application errors with details that cannot be read. -/
theorem errors_reach_client_iff (app : HttpApp) (crates : Crates) (isUri : Text → Bool)
    (template : RequestTemplate) (endpoint : Text) (version : HttpVersion) (id : Text)
    (remaining attemptNumber now : Nat) (service : ServiceSelector) (sent request : HttpRequest)
    (path freshId fallbackId : Text) (env : Environment) (e : Error)
    (hcrates : crates.Documented) (hcontrols : app.invocationControls = true)
    (hid : requestIdIsValid id = true)
    (hsent : template.toRequest isUri endpoint version id remaining attemptNumber true service =
      .ok sent)
    (hdelivered : Delivered sent request) (he : e.Sound)
    (hend : (app.run request freshId env).1.error = some e) :
    CallReaches app crates now request path freshId fallbackId env id e ↔
      Reachable app crates request path id e :=
  callReaches_iff hcrates hcontrols hid (readsAs_delivered hid hsent hdelivered) he hend

/-! ### A request for users -/

/-- A server with the default limits but for the length of a URI. -/
def usersApp (maxUriBytes : Nat) : HttpApp where
  enabled := fun version => version = .http11
  invocationControls := true
  requestTimeout := 30000000000
  maxUriBytes
  maxHeaders := 64
  maxHeaderBytes := 32768

def usersService : ServiceSelector :=
  ⟨"users".toList, none, none, [], (rfl : true = true), isIdentityComponent_of_mem_none,
    isIdentityComponent_of_mem_none, validateUserMetadata_nil, List.nodup_nil⟩

def usersTemplate : RequestTemplate := ⟨.get, "/users".toList, .empty, [], rfl⟩

def usersSent : Except Error HttpRequest :=
  usersTemplate.toRequest (fun _ => true) "http://a/".toList .http11 "request-1".toList 1000000000 1
    true usersService

/-- The headers of the request. -/
def usersHeaders : HeaderMap :=
  match usersSent with
  | .ok request => request.headers
  | .error _ => .empty

/-- The request as an HTTP/1.1 server obtains it. -/
def usersRequest : HttpRequest := ⟨.get, .http11, "/users".toList, usersHeaders, []⟩

theorem usersSent_eq : usersSent =
    .ok ⟨.get, .http11, "http://a/users".toList, usersHeaders, []⟩ := rfl

theorem usersRequest_delivered :
    Delivered ⟨.get, .http11, "http://a/users".toList, usersHeaders, []⟩ usersRequest :=
  ⟨rfl, fun _ _ => rfl⟩

/-- A server that has not started yet. -/
def starting : Environment := ⟨false, .notReady, none, .ok (), none, none⟩

theorem usersRequest_accepted : (usersApp 8192).acceptHead usersRequest = .ok () := by
  have hbytes : headerBytes usersRequest.headers.entries = some 59 := by decide +kernel
  have hhead : (usersApp 8192).validateHead usersRequest = .ok () := by
    unfold HttpApp.validateHead
    rw [if_neg (by decide), if_neg (by decide), hbytes]
    rfl
  unfold HttpApp.acceptHead
  rw [hhead]
  rfl

theorem notReady_reaches : CallReaches (usersApp 8192) jsonCrates 0 usersRequest "/users".toList
    "fresh".toList "fallback".toList starting "request-1".toList notReady := by
  have hend : ((usersApp 8192).run usersRequest "fresh".toList starting).1.error = some notReady := by
    unfold HttpApp.run
    rw [usersRequest_accepted]
    rfl
  have hsound : notReady.Sound := ⟨nofun, nofun, fun _ hd => nomatch hd⟩
  refine (errors_reach_client_iff (usersApp 8192) jsonCrates (fun _ => true) usersTemplate
    "http://a/".toList .http11 "request-1".toList 1000000000 1 0 usersService _ _ _ _ _ starting _
    jsonCrates_documented rfl (by decide) usersSent_eq usersRequest_delivered hsound hend).mpr ?_
  exact ⟨usersRequest_accepted, fun _ hunreadable => nomatch hunreadable.1⟩

/-- A request whose URI is too long is answered without its request id. -/
theorem uriTooLarge_lost : usersSent = .ok ⟨.get, .http11, "http://a/users".toList, usersHeaders, []⟩ ∧
    ((usersApp 5).run usersRequest "fresh".toList starting).1.error = some uriTooLarge ∧
    ¬ CallReaches (usersApp 5) jsonCrates 0 usersRequest "/users".toList "fresh".toList
      "fallback".toList starting "request-1".toList uriTooLarge := by
  have haccept : (usersApp 5).acceptHead usersRequest = .error uriTooLarge := rfl
  refine ⟨usersSent_eq, ?_, not_callReaches_of_rejected haccept⟩
  rw [run_rejected haccept]
  rfl

end Fusen.Server
