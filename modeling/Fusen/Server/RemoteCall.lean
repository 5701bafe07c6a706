import Fusen.Binding.Template
import Fusen.Server.ResponseEcho
import Fusen.Server.Serve

/-!
# A remote call

The client encodes a call and sends an attempt, a server reads it, calls the service and
answers, the client decodes the answer.  `remote_call_returns`: what the service returns for
the arguments that were sent is what the caller obtains.  `remote_call_fails`: a failure of
the service is a failure for the caller, with the same code; `remote_call_refused`: so is a
refusal of the server's admission.
-/

namespace Fusen.Server

open Lib Contract Wire Binding Fusen.Runtime

/-! ## Errors at the client -/

/-- An error as the client obtains it. -/
structure ErrorArrives (e e' : Error) : Prop where
  kind : e'.kind = e.kind
  category : e'.category = sentCategory e
  code : e'.code = e.code
  status : e'.status = sentStatus e
  origin : e'.origin = .remote

/-- The errors that a client can be sent. -/
structure ErrorFits (crates : Crates) (method : Method) (maxBody : Nat) (e : Error) (id : Text)
    (instance_ : Option Text) : Prop where
  method : method ≠ .head
  length : (sentProblem crates e id instance_ true).bytes.length ≤ maxBody
  readable : ¬ Unreadable crates e id instance_ true

section

variable {parseMime : Text → Option Mime} {crates : Crates} {now : Nat} {method : Method}
  {produces id : Text} {maxBody b : Nat} {e : Error} {instance_ : Option Text}
  {response sent : HttpResponse} {frames : List Frame} {received : ReceivedResponse}
  {limits : Nat → Fin Usize.size} {L : Ledger} {held : List Nat}

theorem ErrorArrives.withHeaders {e' : Error} (h : ErrorArrives e e') (headers : HeaderMap) :
    ErrorArrives e (e'.withHeaders headers) :=
  ⟨h.kind, h.category, h.code, h.status, h.origin⟩

/-- An error keeps what arrives of it when the client adds its own id. -/
theorem ErrorArrives.withRequestId {e' : Error} (h : ErrorArrives e e') (id : Text) :
    ErrorArrives e ((e'.withRemoteOrigin).withRequestId id) :=
  ⟨h.kind, h.category, h.code, h.status, rfl⟩

/-- The error in a body that could be read. -/
theorem responseHead_decodeError (controls : Bool) (bytes : List UInt8) :
    (responseHead parseMime crates now method produces id controls received).decodeError bytes =
      (((decodeError crates now method ⟨received.status, responseHeadersForDecoder received.headers,
        bytes, id, controls⟩).withRemoteOrigin).withRequestId id).withHeaders
          (responseHeadersWithoutControl (responseHeadersForDecoder received.headers)) := rfl

/-- A response that is no success is an error, the one in its body if that can be read. -/
theorem decodeHttpResponse_fails {head : ResponseHead} {length : Option Nat}
    (hchecked : head.checked = .ok ()) (hstatus : head.status.isSuccess = false)
    (hempty : isEmptyStatus head.status = false)
    (hlength : head.head = false → head.contentLength = .ok length) (frames : List Frame) :
    ∃ e L' held',
      (decodeHttpResponse head (frames.map Frame.event) maxBody b).exec limits L held =
        some (some (.error e), L', held') ∧
      (head.head = false → (assemble frames).length ≤ maxBody →
        (∀ n ∈ length, n = (assemble frames).length) →
        L.used b + reservation (length.getD 0) (assemble frames).length ≤ limits b →
          e = head.decodeError (assemble frames)) := by
  have hfails : ¬ head.status.isSuccess = true := by simp [hstatus]
  unfold decodeHttpResponse
  rw [hchecked]
  dsimp only
  by_cases hhead : head.head = true
  · rw [if_pos hhead, if_neg hfails]
    exact ⟨_, _, _, rfl, fun h => absurd hhead (by simp [h])⟩
  · rw [if_neg hhead, if_neg (by
      rw [show (_ || _) = false from hempty]
      decide), hlength (by simpa using hhead)]
    dsimp only
    rw [Prog.exec_bind]
    obtain ⟨r, hr, hspec⟩ := @readBodyWithRole_outcome limits b L held length maxBody
      (.response head.requestId) frames
    generalize hx : (readBodyWithRole (frames.map Frame.event) length maxBody b
      (.response head.requestId)).exec limits L held = x at hr
    cases hr with
    | rejected e hL =>
      refine ⟨e, _, _, rfl, fun _ hmax hsame hroom => ?_⟩
      rw [readBodyWithRole_accepts frames hmax hsame hroom] at hx
      cases hx
    | accepted bytes n =>
      obtain ⟨hbytes, -, -, hused, -⟩ := hspec _ rfl
      obtain ⟨L', -, hdrop⟩ := @exec_drop_opened _ _ _ _ _ held hused
        (Prog.pure (some (.error (head.decodeError bytes)) : Awaited Body))
      rw [Option.bind_some]
      dsimp only
      rw [if_neg hfails]
      exact ⟨_, L', held, hdrop, fun _ _ _ _ => congrArg head.decodeError hbytes⟩

/-- The response that an error is, if all its headers are known. -/
theorem encodeProblem_exact {headers : HeaderMap} {v : HeaderValue} (hcrates : crates.Documented)
    (hid : requestIdIsValid id = true) (hheaders : problemHeaders e = some headers)
    (hv : HeaderValue.fromStr id = some v) : encodeProblem crates e id instance_ true =
      some ⟨sentStatus e, (headers.insert contentType problemContentType).insert requestId v,
        ⟨(sentProblem crates e id instance_ true).bytes, none⟩⟩ := by
  have hbody := (boundedProblem_fullProblem e instance_ true hcrates hid).1
  have hstatus : (problemFromError crates e id instance_).2 = sentStatus e := by
    unfold problemFromError
    rw [problemCategory_eq]
  have hfull : fullProblem crates e id instance_ true =
      (problemFromError crates e id instance_).1 := rfl
  rw [hfull] at hbody
  unfold encodeProblem
  simp only [hbody, hheaders, hstatus, insertRequestId, hv, if_true, Option.bind_some,
    Option.bind_eq_bind, Option.map_some]

/-- The status of an error is neither a success nor without a body. -/
theorem sentStatus_fails (he : e.Sound) :
    (sentStatus e).isSuccess = false ∧ isEmptyStatus (sentStatus e) = false := by
  have herror := sentStatus_isError he
  simp only [StatusCode.isClientError, StatusCode.isServerError, StatusCode.isSuccess,
    isEmptyStatus, Bool.and_eq_true, decide_eq_true_eq, Bool.or_eq_false_iff,
    decide_eq_false_iff_not, Bool.and_eq_false_iff] at herror ⊢
  omega

/-- **A failure is an error for the caller**, the same one if its problem can be read. -/
theorem error_arrives (hcrates : crates.Documented) (he : e.Sound)
    (hid : requestIdIsValid id = true) (hechoes : Echoes crates e id instance_ response)
    (hdelivered : DeliveredResponse
      (if method = .head then { response with body := ⟨[], none⟩ } else response)
      (method = .head) frames received)
    (hroom : L.used b + chunked (sentProblem crates e id instance_ true).bytes.length ≤ limits b) :
    ∃ e' L' held', (receiveResponse parseMime crates now method produces id true maxBody b
        received).exec limits L held = some (some (.error e'), L', held') ∧
      (ErrorFits crates method maxBody e id instance_ → ErrorArrives e e') := by
  generalize hsent : (if method = .head then { response with body := ⟨[], none⟩ } else response) =
    sent at hdelivered
  have hstatus : sent.status = sentStatus e := by
    rw [← hsent]
    split <;> exact hechoes.status
  have hecho : ReadsAs sent.headers requestId (some id) := by
    rw [← hsent]
    split <;> exact hechoes.echoed
  have hreceived : received.status = sentStatus e := hdelivered.status.trans hstatus
  obtain ⟨hfails, hnonempty⟩ := sentStatus_fails he
  have hlt : (sentProblem crates e id instance_ true).bytes.length < 2 ^ 64 :=
    (le_chunked _).trans_lt (lt_of_room hroom)
  -- the body is looked at only if there is one
  have hbody : method ≠ .head → assemble frames = (sentProblem crates e id instance_ true).bytes ∧
      ∃ length, parseResponseContentLength received.headers id = .ok length ∧
        ∀ n ∈ length, n = (assemble frames).length := by
    intro hmethod
    rw [if_neg hmethod] at hsent
    have hbytes : sent.body.bytes = (sentProblem crates e id instance_ true).bytes := by
      rw [← hsent]
      exact hechoes.body
    rw [decide_eq_false hmethod] at hdelivered
    rw [hdelivered.body, hbytes]
    refine ⟨rfl, ?_⟩
    rw [← hbytes] at hlt ⊢
    exact parseResponseContentLength_delivered hdelivered hlt
  obtain ⟨length, hlength⟩ : ∃ length, method ≠ .head →
      parseResponseContentLength received.headers id = .ok length ∧
        ∀ n ∈ length, n = (assemble frames).length := by
    by_cases hmethod : method = .head
    · exact ⟨none, fun h => absurd hmethod h⟩
    · obtain ⟨-, length, hlength⟩ := hbody hmethod
      exact ⟨length, fun _ => hlength⟩
  have hchecked : (responseHead parseMime crates now method produces id true received).checked =
      .ok () := checked_delivered hdelivered hid fun _ => hecho
  obtain ⟨found, L', held', hx, hfound⟩ := @decodeHttpResponse_fails maxBody b limits L held
    (responseHead parseMime crates now method produces id true received) length hchecked
    (show received.status.isSuccess = false from hreceived ▸ hfails)
    (show isEmptyStatus received.status = false from hreceived ▸ hnonempty)
    (fun hhead => (hlength (of_decide_eq_false hhead)).1) frames
  rw [← hdelivered.events] at hx
  refine ⟨if found.origin = .remote then found.withHeaders (responseHeadersWithoutControl
    (responseHeadersForDecoder received.headers)) else found, L', held', ?_, ?_⟩
  · unfold receiveResponse
    rw [Prog.exec_bind, hx]
    rfl
  · rintro ⟨hmethod, hmax, hreadable⟩
    obtain ⟨hframes, -⟩ := hbody hmethod
    obtain ⟨-, hsame⟩ := hlength hmethod
    rw [← hframes] at hmax hroom
    have hdecoded := hfound (decide_eq_false hmethod) hmax hsame
      ((Nat.add_le_add_left (reservation_le_chunked hsame) _).trans hroom)
    have harrives : ErrorArrives e found := by
      rw [hdecoded, hframes, responseHead_decodeError]
      refine ErrorArrives.withHeaders (ErrorArrives.withRequestId ?_ id) _
      unfold decodeError
      rw [if_neg fun h => hmethod h.1]
      dsimp only
      rw [hreceived]
      rcases decodeProblem_encoded now instance_ true (responseHeadersForDecoder received.headers)
        hcrates he hid with ⟨hun, -⟩ | ⟨-, h⟩
      · exact absurd hun hreadable
      · exact ⟨h.kind, h.category, h.code, h.status, h.origin⟩
    rw [if_pos harrives.origin]
    exact harrives.withHeaders _

end

/-! ## The call at the server -/

/-- A server with the route of a call, next to those of any other services. -/
structure HttpServer.Hosts (s : HttpServer) (routes : List Route) (route : Route)
    (service : ServiceSelector) (request : RequestEncoding) : Prop where
  built : RouteTable.build s.codecs.codec routes = .ok s.table
  member : route ∈ routes
  operation : route.operation = request.operation
  selector : s.selector route = service
  enabled : s.app.invocationControls = true
  mime : s.codecs.parseMime [] = none
  consumes : isJsonMediaType s.codecs.parseMime request.operation.consumes = true
  produces : isJsonMediaType s.codecs.parseMime request.operation.produces = true

/-- The service was called with these arguments, and ended so; the budgets were as before. -/
def HttpServer.Calls (s : HttpServer) (limits : Nat → Fin Usize.size) (S : Ledger)
    (held : List Nat) (m : MatchedRoute) (out : Arguments) (result : Awaited Response) : Prop :=
  ∃ S₁ S₂ held₂, S.Restored S₁ ∧ (s.service m out).exec limits S₁ held = some (result, S₂, held₂)

section

variable {s : HttpServer} {routes : List Route} {route : Route} {service : ServiceSelector}
  {request : RequestEncoding} {encoded : EncodedRequest} {template : RequestTemplate} {id : Text}
  {remaining attemptNumber : Nat} {sent delivered : HttpRequest} {frames : List Frame}
  {events : List BodyEvent} {limits : Nat → Fin Usize.size} {S : Ledger}

/-- A call that dispatches, with not too many query pairs, comes to the admission. -/
theorem call_accepted (hhosts : s.Hosts routes route service request)
    (hdispatch : Dispatches s.codecs.codec routes request)
    (hpairs : (request.operation.parameters.flatMap (parameterPairs request.arguments)).length ≤
      s.limits.maxQueryPairs)
    (htemplate : TemplateOf s.codecs.codec request encoded template)
    (hid : requestIdIsValid id = true) (hnumber : 0 < attemptNumber ∧ attemptNumber < 256)
    (hreplay : 1 < attemptNumber → route.method.allowsRetries = true)
    (hattempt : SentAttempt template id remaining attemptNumber service sent)
    (hcarried : CarriedRequest template sent frames delivered events)
    (hhead : s.app.acceptHead delivered = .ok ()) :
    ∃ m, m.route = route ∧ s.Accepts delivered m id remaining attemptNumber service := by
  have hdelivered := hcarried.deliveredRequest htemplate hattempt
  obtain ⟨_, _, hencoding⟩ := encodeJsonRequest_encoding htemplate.encodes
  have hmatch := (path_dispatches_iff hhosts.built hhosts.member hhosts.operation htemplate.encodes
    (m := ⟨route, _⟩) rfl).mpr ⟨hdispatch, rfl⟩
  rw [← hdelivered.method, ← hdelivered.pathAndQuery] at hmatch
  rw [← (query_of_encoding hencoding).2, ← htemplate.pathAndQuery, ← hcarried.target] at hpairs
  exact ⟨⟨route, _⟩, rfl, ⟨hhead, hhosts.enabled, hid, hcarried.sentControls hattempt, hnumber,
    hreplay, hmatch, hhosts.selector, hpairs⟩⟩

/-- **A call that fits invokes the service** with the arguments that were sent. -/
theorem call_invokes (hhosts : s.Hosts routes route service request)
    (hjson : ∀ v, sentBody request = some v → ReadsJson s.codecs v)
    (hfits : CallFits s.codecs s.limits routes request)
    (htemplate : TemplateOf s.codecs.codec request encoded template)
    (hid : requestIdIsValid id = true) (hnumber : 0 < attemptNumber ∧ attemptNumber < 256)
    (hreplay : 1 < attemptNumber → route.method.allowsRetries = true)
    (hattempt : SentAttempt template id remaining attemptNumber service sent)
    (hcarried : CarriedRequest template sent frames delivered events)
    (hhead : s.app.acceptHead delivered = .ok ())
    (hroom : S.used s.limits.requestBudget + chunked encoded.body.length ≤
      limits s.limits.requestBudget) (held : List Nat) :
    ∃ m out, m.route = route ∧ ArgumentsArrive request out ∧
      s.Accepts delivered m id remaining attemptNumber service ∧
      ∃ S₁, S.Restored S₁ ∧
        (s.invoke ⟨delivered.method, delivered.uri, delivered.headers, events⟩).exec limits S held =
          (s.service m out >>= s.answer m).exec limits S₁ held := by
  have hdelivered := hcarried.deliveredRequest htemplate hattempt
  obtain ⟨m, out, rfl, hreceives, harrive⟩ := receives_of_callFits hhosts.built hhosts.member
    hhosts.operation htemplate.encodes hdelivered hjson hhosts.mime hhosts.consumes hroom held
    hfits
  obtain ⟨m', -, haccepts⟩ := call_accepted hhosts hfits.dispatches hfits.pairs htemplate hid hnumber
    hreplay hattempt hcarried hhead
  obtain ⟨hmatch, S₁, hS₁, hexec⟩ := HttpServer.invoke_of_receives hreceives
  obtain rfl : m' = m := Except.ok.inj (haccepts.matched.symm.trans hmatch)
  exact ⟨m', out, rfl, harrive, haccepts, S₁, hS₁, hexec⟩

/-! ## The call at the client -/

/-- What is delivered of a response does not depend on its permit. -/
theorem DeliveredResponse.of_bytes {response response' : HttpResponse} {suppressed : Bool}
    {frames : List Frame} {received : ReceivedResponse}
    (h : DeliveredResponse response suppressed frames received)
    (hstatus : response.status = response'.status) (hheaders : response.headers = response'.headers)
    (hbytes : response.body.bytes = response'.body.bytes) :
    DeliveredResponse response' suppressed frames received :=
  ⟨hstatus ▸ h.status, h.version, hheaders ▸ h.headers, hbytes ▸ h.length, h.events,
    hbytes ▸ h.body⟩

variable {isPathAndQuery isUri : Text → Bool} {maxRequest c permit : Nat} {endpoint : Text}
  {version : HttpVersion} {C C' : Ledger} {clientLimits : Nat → Fin Usize.size}
  {clientHeld clientHeld' : List Nat} {held held' : List Nat} {S' : Ledger}
  (hhosts : s.Hosts routes route service request)
  (hjson : ∀ v, sentBody request = some v → ReadsJson s.codecs v)
  (hfits : CallFits s.codecs s.limits routes request)
  (htemplate : (encodeRequestTemplate s.codecs.codec isPathAndQuery request maxRequest c).exec
    clientLimits C clientHeld = some (.ok (template, permit), C', clientHeld'))
  (hid : requestIdIsValid id = true) (hnumber : 0 < attemptNumber ∧ attemptNumber < 256)
  (hreplay : 1 < attemptNumber → route.method.allowsRetries = true)
  (hsent : template.toRequest isUri endpoint version id remaining attemptNumber true service =
    .ok sent)
  (hcarried : CarriedRequest template sent frames delivered events)
  (hhead : s.app.acceptHead delivered = .ok ())
  (hroom : S.used s.limits.requestBudget + chunked template.body.length ≤
    limits s.limits.requestBudget)

include hhosts hjson hfits htemplate hid hnumber hreplay hsent hcarried hhead hroom

/-- What the invocation of a call ends with is made of what the service ended with. -/
theorem remote_call_invokes {executed : Except Error HttpResponse}
    (hexec : (s.invoke ⟨delivered.method, delivered.uri, delivered.headers, events⟩).exec limits S
      held = some (executed, S', held')) :
    delivered.method = request.operation.method ∧ ∃ m out, m.route = route ∧
      ArgumentsArrive request out ∧ s.Accepts delivered m id remaining attemptNumber service ∧
      ∃ S₁ result S₂ held₂, S.Restored S₁ ∧
        (s.service m out).exec limits S₁ held = some (result, S₂, held₂) ∧
        (s.answer m result).exec limits S₂ held₂ = some (executed, S', held') := by
  obtain ⟨encoded, htemplate⟩ :=
    (encodeRequestTemplate_ends _ _ _ _ _).exec htemplate template permit rfl
  have hattempt := sentAttempt_of_toRequest hid hsent
  obtain ⟨m, out, hroute, harrive, haccepts, S₁, hS₁, hinvoke⟩ := call_invokes hhosts hjson hfits
    htemplate hid hnumber hreplay hattempt hcarried hhead (htemplate.body ▸ hroom) held
  rw [hexec, Prog.exec_bind] at hinvoke
  obtain ⟨⟨result, S₂, held₂⟩, hservice, hanswer⟩ := Option.bind_eq_some_iff.mp hinvoke.symm
  refine ⟨?_, m, out, hroute, harrive, haccepts, S₁, result, S₂, held₂, hS₁, hservice, hanswer⟩
  obtain ⟨_, _, hencoding⟩ := encodeJsonRequest_encoding htemplate.encodes
  rw [hcarried.method, hattempt.method, htemplate.method, hencoding.method]

/-- **A remote call returns what the service returns**, called with the arguments that were
sent: a caller whose byte budget has room for it obtains the response of the service exactly when
it can be sent its body. -/
theorem remote_call_returns {served : HttpResponse}
    (hexec : (s.invoke ⟨delivered.method, delivered.uri, delivered.headers, events⟩).exec limits S
      held = some (.ok served, S', held')) (freshId fallbackId : Text) :
    ∃ m out response answer, m.route = route ∧ ArgumentsArrive request out ∧
      s.Calls limits S held m out (some (.ok response)) ∧
      s.respond delivered freshId fallbackId (.ok served) = some answer ∧
      ∀ {answerFrames : List Frame} {received : ReceivedResponse} {L : Ledger} {b maxBody now : Nat},
        DeliveredResponse answer (response.suppressesBody (request.operation.method = .head))
          answerFrames received →
        response.status.isSuccess = true →
        L.used b + (chunked response.body.bytes.length + nullBytes.length) ≤ clientLimits b →
        ((∃ got L' clientHeld', (receiveResponse s.codecs.parseMime s.crates now
            request.operation.method request.operation.produces id true maxBody b received).exec
              clientLimits L clientHeld = some (some (.ok got), L', clientHeld') ∧
          ResponseArrives response (response.suppressesBody (request.operation.method = .head)) got) ↔
        BodyFits request.operation.method request.operation.produces maxBody response) := by
  obtain ⟨hmethod, m, out, hroute, harrive, haccepts, S₁, result, S₂, held₂, hS₁, hservice,
    hanswer⟩ := remote_call_invokes hhosts hjson hfits htemplate hid hnumber hreplay hsent hcarried
      hhead hroom hexec
  obtain ⟨sealed, hseal, hrespond⟩ := HttpServer.respond_ok served freshId fallbackId haccepts
  rcases result with _ | e | response
  · cases hanswer
  · cases hanswer
  refine ⟨m, out, response, _, hroute, harrive, ⟨S₁, S₂, held₂, hS₁, hservice⟩, hrespond, ?_⟩
  intro answerFrames received L b maxBody now hanswered hsuccess hclient
  have hop : m.route.operation = request.operation := hroute ▸ hhosts.operation
  have hencodes := (encodeSuccess_ends _ _ _ _ _).exec hanswer served rfl
  rw [hop] at hencodes
  have hdelivered : DeliveredResponse sealed (response.suppressesBody (request.operation.method =
      .head)) answerFrames received := by
    rw [hmethod] at hanswered
    by_cases hhead : request.operation.method = .head
    · rw [if_pos hhead] at hanswered
      refine hanswered.of_bytes rfl rfl ?_
      rw [(sealResponse_eq_some hseal).2.1, hencodes.body, if_pos]
      simp [Response.suppressesBody, hhead]
    · rwa [if_neg hhead] at hanswered
  rw [receives_iff_decodesTo hencodes hseal hdelivered]
  exact decodesTo_iff_bodyFits hencodes hseal hdelivered hsuccess hid hhosts.mime hhosts.produces
    hclient

/-- **A remote call that fails is an error for the caller**, never a success: the error of the
service if its problem can be read, and the deadline's if the service was not done in time. -/
theorem remote_call_fails {e : Error} (hcrates : s.crates.Documented) (he : e.Sound)
    (hexec : (s.invoke ⟨delivered.method, delivered.uri, delivered.headers, events⟩).exec limits S
      held = some (.error e, S', held')) (freshId fallbackId : Text) :
    ∃ m out result answer, m.route = route ∧ ArgumentsArrive request out ∧
      s.Calls limits S held m out result ∧ (∀ e', result = some (.error e') → e' = e) ∧
      (result = none → e = deadlineExceeded) ∧
      s.respond delivered freshId fallbackId (.error e) = some answer ∧
      ∀ {answerFrames : List Frame} {received : ReceivedResponse} {L : Ledger} {b maxBody now : Nat},
        DeliveredResponse answer (request.operation.method = .head) answerFrames received →
        L.used b + chunked (sentProblem s.crates e id (some (uriPath delivered.uri)) true).bytes.length
          ≤ clientLimits b →
        ∃ e' L' clientHeld', (receiveResponse s.codecs.parseMime s.crates now
            request.operation.method request.operation.produces id true maxBody b received).exec
              clientLimits L clientHeld = some (some (.error e'), L', clientHeld') ∧
          (ErrorFits s.crates request.operation.method maxBody e id (some (uriPath delivered.uri)) →
            ErrorArrives e e') := by
  obtain ⟨hmethod, m, out, hroute, harrive, haccepts, S₁, result, S₂, held₂, hS₁, hservice,
    hanswer⟩ := remote_call_invokes hhosts hjson hfits htemplate hid hnumber hreplay hsent hcarried
      hhead hroom hexec
  obtain ⟨response, hechoes, hrespond⟩ :=
    HttpServer.respond_error e freshId fallbackId hcrates haccepts
  refine ⟨m, out, result, _, hroute, harrive, ⟨S₁, S₂, held₂, hS₁, hservice⟩, ?_, ?_, hrespond, ?_⟩
  · rintro e' rfl
    cases hanswer
    rfl
  · rintro rfl
    cases hanswer
    rfl
  · intro answerFrames received L b maxBody now hanswered hclient
    rw [hmethod] at hanswered
    exact error_arrives hcrates he hid hechoes hanswered hclient

end

/-! ## A call that is not admitted -/

section

variable {s : HttpServer} {routes : List Route} {route : Route} {service : ServiceSelector}
  {request : RequestEncoding} {template : RequestTemplate} {id : Text} {remaining attemptNumber : Nat}
  {sent delivered : HttpRequest} {frames : List Frame} {events : List BodyEvent}
  {isPathAndQuery isUri : Text → Bool} {maxRequest c permit : Nat} {endpoint : Text}
  {version : HttpVersion} {C C' : Ledger} {clientLimits : Nat → Fin Usize.size}
  {clientHeld clientHeld' : List Nat}

/-- **A refusal of the admission is an error for the caller**: whatever `acquire_admission` of the
server refuses a call for, the client obtains that error if its problem can be read. -/
theorem remote_call_refused (refusal : Refusal) (hcrates : s.crates.Documented)
    (hhosts : s.Hosts routes route service request)
    (hdispatch : Dispatches s.codecs.codec routes request)
    (hpairs : (request.operation.parameters.flatMap (parameterPairs request.arguments)).length ≤
      s.limits.maxQueryPairs)
    (htemplate : (encodeRequestTemplate s.codecs.codec isPathAndQuery request maxRequest c).exec
      clientLimits C clientHeld = some (.ok (template, permit), C', clientHeld'))
    (hid : requestIdIsValid id = true) (hnumber : 0 < attemptNumber ∧ attemptNumber < 256)
    (hreplay : 1 < attemptNumber → route.method.allowsRetries = true)
    (hsent : template.toRequest isUri endpoint version id remaining attemptNumber true service =
      .ok sent)
    (hcarried : CarriedRequest template sent frames delivered events)
    (hhead : s.app.acceptHead delivered = .ok ()) (freshId fallbackId : Text) :
    ∃ answer, s.refuse delivered freshId fallbackId (admissionError refusal) = some answer ∧
      ∀ {answerFrames : List Frame} {received : ReceivedResponse} {L : Ledger} {b maxBody now : Nat},
        DeliveredResponse answer (request.operation.method = .head) answerFrames received →
        L.used b + chunked (sentProblem s.crates (admissionError refusal) id
          (some (uriPath delivered.uri)) true).bytes.length ≤ clientLimits b →
        ∃ e L' clientHeld', (receiveResponse s.codecs.parseMime s.crates now
            request.operation.method request.operation.produces id true maxBody b received).exec
              clientLimits L clientHeld = some (some (.error e), L', clientHeld') ∧
          (ErrorFits s.crates request.operation.method maxBody (admissionError refusal) id
            (some (uriPath delivered.uri)) → ErrorArrives (admissionError refusal) e) := by
  obtain ⟨encoded, htemplate⟩ :=
    (encodeRequestTemplate_ends _ _ _ _ _).exec htemplate template permit rfl
  have hattempt := sentAttempt_of_toRequest hid hsent
  obtain ⟨m, -, haccepts⟩ := call_accepted hhosts hdispatch hpairs htemplate hid hnumber hreplay
    hattempt hcarried hhead
  obtain ⟨response, hechoes, hrefuse⟩ := HttpServer.refuse_error (admissionError refusal) freshId
    fallbackId hcrates haccepts
  refine ⟨_, hrefuse, ?_⟩
  intro answerFrames received L b maxBody now hanswered hclient
  obtain ⟨_, _, hencoding⟩ := encodeJsonRequest_encoding htemplate.encodes
  have hmethod : delivered.method = request.operation.method := by
    rw [hcarried.method, hattempt.method, htemplate.method, hencoding.method]
  rw [hmethod] at hanswered
  exact error_arrives hcrates (admissionError_sound refusal) hid hechoes hanswered hclient

end

/-! ### A note that is created -/

/-- The server of the notes, with one service for all its routes. -/
def noteServer (table : RouteTable) (result : Except Error Response) : HttpServer where
  app := usersApp 8192
  table
  selector := fun _ => usersService
  codecs := plainCrates
  crates := jsonCrates
  limits := ⟨64, 0, 16⟩
  maxResponseBody := 64
  responseBudget := 1
  service := fun _ _ => .pure (some result)

def noteCall : RequestTemplate :=
  ⟨.post, "/users/7/notes".toList, ⟨[(contentType, jsonValue), (accept, jsonValue)]⟩,
    utf8 noteBody.print, rfl⟩

def noteSent : Except Error HttpRequest :=
  noteCall.toRequest (fun _ => true) "http://a/".toList .http11 "request-1".toList 1000000000 1 true
    usersService

def noteHeaders : HeaderMap :=
  match noteSent with
  | .ok request => request.headers
  | .error _ => .empty

/-- The request as an HTTP/1.1 server obtains it; its body comes in two frames. -/
def noteDelivered : HttpRequest := ⟨.post, .http11, "/users/7/notes".toList, noteHeaders, []⟩

def noteFrames : List Frame :=
  [some (utf8 "\x7b\"text\":".toList), none, some (utf8 "\"hi\"\x7d".toList)]

theorem noteSent_eq : noteSent = .ok ⟨.post, .http11, "http://a/users/7/notes".toList, noteHeaders,
    utf8 noteBody.print⟩ := rfl

theorem noteCall_encoded : (encodeRequestTemplate .utf8 (fun _ => true) (noteRequest "7") 64 0).exec
    (tightBudget 8192) .empty [] = some (.ok (noteCall, 0), Ledger.empty.opened 0 13, [0]) := by
  have hroom : Ledger.empty.used 0 + 13 ≤ tightBudget 8192 0 := by decide
  show (Prog.tryReserve 0 13 _).exec _ _ _ = _
  rw [exec_tryReserve_of_le hroom]
  rfl

theorem noteDelivered_carried : CarriedRequest noteCall
    ⟨.post, .http11, "http://a/users/7/notes".toList, noteHeaders, utf8 noteBody.print⟩ noteFrames
    noteDelivered (noteFrames.map Frame.event) :=
  ⟨rfl, rfl, fun _ _ => rfl, rfl, rfl, .inl (by decide), by decide, rfl, by decide⟩

theorem noteDelivered_accepted : (usersApp 8192).acceptHead noteDelivered = .ok () := by
  have hbytes : headerBytes noteDelivered.headers.entries = some 109 := by decide +kernel
  have hhead : (usersApp 8192).validateHead noteDelivered = .ok () := by
    unfold HttpApp.validateHead
    rw [if_neg (by decide), if_neg (by decide), hbytes]
    rfl
  unfold HttpApp.acceptHead
  rw [hhead]
  rfl

theorem noteServer_hosts {table : RouteTable}
    (hbuild : RouteTable.build .utf8 [noteRoute, ownNotesRoute] = .ok table)
    (result : Except Error Response) :
    (noteServer table result).Hosts [noteRoute, ownNotesRoute] noteRoute usersService
      (noteRequest "7") where
  built := hbuild
  member := List.mem_pair.mpr (.inl rfl)
  operation := rfl
  selector := rfl
  enabled := rfl
  mime := rfl
  consumes := rfl
  produces := rfl

theorem noteCall_room : Ledger.empty.used 0 + chunked noteCall.body.length ≤ tightBudget 8192 0 := by
  decide

/-- The note is created, or not, with all budgets free. -/
theorem noteServer_invokes {table : RouteTable}
    (hbuild : RouteTable.build .utf8 [noteRoute, ownNotesRoute] = .ok table)
    (result : Except Error Response) : ∃ m S₁, m.route = noteRoute ∧
      (noteServer table result).Accepts noteDelivered m "request-1".toList 1000000000 1 usersService ∧
      Ledger.empty.Restored S₁ ∧
      ((noteServer table result).invoke ⟨noteDelivered.method, noteDelivered.uri,
        noteDelivered.headers, noteFrames.map Frame.event⟩).exec (tightBudget 8192) .empty [] =
          ((noteServer table result).answer m (some result)).exec (tightBudget 8192) S₁ [] := by
  obtain ⟨encoded, htemplate⟩ :=
    (encodeRequestTemplate_ends _ _ _ _ _).exec noteCall_encoded noteCall 0 rfl
  obtain ⟨m, out, hroute, -, haccepts, S₁, hS₁, hinvoke⟩ :=
    call_invokes (noteServer_hosts hbuild result) readsJson_noteBody callFits_note htemplate rfl
      (by decide)
      (fun h => absurd h (by decide))
      (sentAttempt_of_toRequest rfl noteSent_eq) noteDelivered_carried noteDelivered_accepted
      (htemplate.body ▸ noteCall_room) []
  exact ⟨m, S₁, hroute, haccepts, hS₁, hinvoke⟩

theorem remote_call_returns_note : ∃ table served S' held' answer got L' clientHeld',
    RouteTable.build .utf8 [noteRoute, ownNotesRoute] = .ok table ∧
    ((noteServer table (.ok createdResponse)).invoke ⟨noteDelivered.method, noteDelivered.uri,
      noteDelivered.headers, noteFrames.map Frame.event⟩).exec (tightBudget 8192) .empty [] =
        some (.ok served, S', held') ∧
    (noteServer table (.ok createdResponse)).respond noteDelivered [] [] (.ok served) = some answer ∧
    (receiveResponse plainCrates.parseMime jsonCrates 0 .post "application/json".toList
      "request-1".toList true 64 0 createdReceived).exec (tightBudget 8192) .empty [] =
        some (some (.ok got), L', clientHeld') ∧
    ResponseArrives createdResponse false got := by
  obtain ⟨table, hbuild⟩ := build_notes
  obtain ⟨m, S₁, hroute, haccepts, hS₁, hinvoke⟩ := noteServer_invokes hbuild (.ok createdResponse)
  have hroom : S₁.used 1 + 8 ≤ tightBudget 8192 1 := by
    rw [hS₁.used]
    decide
  have hanswer : ((noteServer table (.ok createdResponse)).answer m (some (.ok createdResponse))).exec
      (tightBudget 8192) S₁ [] = some (.ok ⟨⟨201, by decide⟩, createdHeaders,
        ⟨createdBody, some S₁.permits.length⟩⟩, S₁.opened 1 8, [S₁.permits.length]) := by
    show (encodeSuccess _ m.route.operation.produces _ _ _).exec _ _ _ = _
    rw [hroute]
    exact createdResponse_encoded [] hroom
  have hexec := hinvoke.trans hanswer
  obtain ⟨sealed, hseal, hresponds⟩ := HttpServer.respond_ok ⟨⟨201, by decide⟩, createdHeaders,
    ⟨createdBody, some S₁.permits.length⟩⟩ [] [] haccepts
  obtain ⟨_, _, response, answer, _, _, ⟨_, _, _, _, hservice⟩, hrespond, harrives⟩ :=
    remote_call_returns (noteServer_hosts hbuild (.ok createdResponse)) readsJson_noteBody
      callFits_note noteCall_encoded rfl (by decide) (fun h => absurd h (by decide)) noteSent_eq
      noteDelivered_carried noteDelivered_accepted noteCall_room hexec [] []
  cases hservice
  have hsame : answer = { createdSent with body := ⟨createdBody, some S₁.permits.length⟩ } := by
    rw [hresponds, Option.some.injEq] at hrespond
    rw [← hrespond]
    rw [if_neg (by decide)]
    exact (Option.some.inj hseal).symm
  have hdelivered : DeliveredResponse answer (createdResponse.suppressesBody (Method.post = .head))
      [some (utf8 "\x7b\"id\"".toList), none, some (utf8 ":7\x7d".toList)] createdReceived :=
    hsame ▸ ⟨rfl, .inl rfl, fun _ _ => rfl, fun _ => .inl rfl, rfl,
      (rfl : assemble [some (utf8 "\x7b\"id\"".toList), none, some (utf8 ":7\x7d".toList)] =
        createdBody)⟩
  have hroom : Ledger.empty.used 0 + (chunked createdResponse.body.bytes.length +
      nullBytes.length) ≤ tightBudget 8192 0 := by
    decide
  have hfits : BodyFits .post "application/json".toList 64 createdResponse := ⟨by decide, by decide⟩
  obtain ⟨got, L', clientHeld', hreceive, harrive⟩ := (harrives hdelivered rfl hroom).mpr hfits
  exact ⟨table, _, _, _, answer, got, L', clientHeld', hbuild, hexec, hrespond, hreceive, harrive⟩

/-- The error of a service that has the note. -/
def noteExists : Error :=
  .fresh .application (categoryFromStatus .conflict) ⟨"note_exists".toList, (rfl : true = true)⟩
    "the note exists".toList .conflict

def noteProblem : List UInt8 :=
  (sentProblem jsonCrates noteExists "request-1".toList (some (uriPath noteDelivered.uri)) true).bytes

theorem noteProblem_length : noteProblem.length ≤ EMERGENCY_PROBLEM_LIMIT :=
  (boundedProblem_fullProblem noteExists (some (uriPath noteDelivered.uri)) true
    jsonCrates_documented rfl).2

theorem noteExists_sound : noteExists.Sound :=
  ⟨fun _ => rfl, fun _ => .inl rfl, fun _ hd => nomatch hd⟩

def noteErrorHeaders : HeaderMap :=
  ⟨[(contentType, problemContentType), (requestId, ⟨utf8 "request-1".toList, (rfl : true = true)⟩)]⟩

/-- An error comes from the server of the notes with these headers. -/
theorem noteError_encoded {e : Error} (hheaders : problemHeaders e = some .empty) :
    encodeProblem jsonCrates e "request-1".toList (some (uriPath noteDelivered.uri)) true =
      some ⟨sentStatus e, noteErrorHeaders, ⟨(sentProblem jsonCrates e "request-1".toList
        (some (uriPath noteDelivered.uri)) true).bytes, none⟩⟩ := by
  have hid : HeaderValue.fromStr "request-1".toList = some ⟨utf8 "request-1".toList, by decide⟩ := rfl
  exact encodeProblem_exact jsonCrates_documented rfl hheaders hid

/-- A response with these headers, in one frame. -/
theorem noteError_delivered {answer : HttpResponse} (h : answer.headers = noteErrorHeaders) :
    DeliveredResponse answer false [some answer.body.bytes]
      ⟨answer.status, .http11, answer.headers, [.data answer.body.bytes]⟩ where
  status := rfl
  version := .inl rfl
  headers := fun _ _ => rfl
  length := fun _ => .inl (by rw [h]; rfl)
  events := rfl
  body := List.append_nil _

/-- The answer to the note that exists. -/
def noteConflict : HttpResponse := ⟨sentStatus noteExists, noteErrorHeaders, ⟨noteProblem, none⟩⟩

theorem noteServer_conflict {table : RouteTable} {m : MatchedRoute} {result : Except Error Response}
    (haccepts : (noteServer table result).Accepts noteDelivered m "request-1".toList 1000000000 1
      usersService) :
    (noteServer table result).respond noteDelivered [] [] (.error noteExists) = some noteConflict := by
  have hencode : encodeProblem jsonCrates noteExists "request-1".toList
      (some (uriPath noteDelivered.uri)) true = some noteConflict := noteError_encoded rfl
  have hseal : sealResponse noteConflict "request-1".toList true = some noteConflict := by
    unfold sealResponse
    rfl
  have hresponds := @HttpServer.Accepts.run _ _ _ _ _ _ _ (.error noteExists) [] haccepts
  unfold HttpServer.respond HttpApp.call
  rw [hresponds]
  simp only [HttpApp.respond]
  rw [show (noteServer table result).crates = jsonCrates from rfl, hencode, Option.bind_some, hseal]
  rfl

/-- The response, in one frame. -/
def noteConflictReceived : ReceivedResponse where
  status := .conflict
  version := .http11
  headers := noteErrorHeaders
  body := [.data noteProblem]

theorem noteConflict_delivered :
    DeliveredResponse noteConflict false [some noteProblem] noteConflictReceived :=
  noteError_delivered rfl

theorem remote_call_fails_note : ∃ table S' held' e' L' clientHeld',
    RouteTable.build .utf8 [noteRoute, ownNotesRoute] = .ok table ∧
    ((noteServer table (.error noteExists)).invoke ⟨noteDelivered.method, noteDelivered.uri,
      noteDelivered.headers, noteFrames.map Frame.event⟩).exec (tightBudget 8192) .empty [] =
        some (.error noteExists, S', held') ∧
    (noteServer table (.error noteExists)).respond noteDelivered [] [] (.error noteExists) =
      some noteConflict ∧
    (receiveResponse plainCrates.parseMime jsonCrates 0 .post "application/json".toList
      "request-1".toList true 8192 0 noteConflictReceived).exec (tightBudget 8192) .empty [] =
        some (some (.error e'), L', clientHeld') ∧
    ErrorArrives noteExists e' := by
  obtain ⟨table, hbuild⟩ := build_notes
  obtain ⟨m, S₁, -, haccepts, -, hinvoke⟩ := noteServer_invokes hbuild (.error noteExists)
  have hanswer : ((noteServer table (.error noteExists)).answer m (some (.error noteExists))).exec
      (tightBudget 8192) S₁ [] = some (.error noteExists, S₁, []) := rfl
  have hexec := hinvoke.trans hanswer
  have hresponds := noteServer_conflict haccepts
  obtain ⟨_, _, _, answer, _, _, _, _, _, hrespond, harrives⟩ :=
    remote_call_fails (noteServer_hosts hbuild (.error noteExists)) readsJson_noteBody
      callFits_note noteCall_encoded rfl (by decide) (fun h => absurd h (by decide)) noteSent_eq
      noteDelivered_carried noteDelivered_accepted noteCall_room jsonCrates_documented noteExists_sound
      hexec [] []
  obtain rfl : noteConflict = answer := Option.some.inj (hresponds.symm.trans hrespond)
  have hlength := noteProblem_length
  have hroom : Ledger.empty.used 0 + chunked noteProblem.length ≤ tightBudget 8192 0 :=
    (Nat.add_le_add_left (chunked_mono hlength) _).trans (by decide)
  obtain ⟨e', L', clientHeld', hreceive, harrive⟩ := harrives noteConflict_delivered hroom
  refine ⟨table, _, _, e', L', clientHeld', hbuild, hexec, hresponds, hreceive, harrive ?_⟩
  exact ⟨by decide, hlength.trans (by decide), fun h => nomatch h.2.2.2⟩

/-- The answer to a note for which all places of the queue are taken. -/
def noteRefusal : HttpResponse :=
  ⟨sentStatus overloaded, noteErrorHeaders, ⟨(sentProblem jsonCrates overloaded "request-1".toList
    (some (uriPath noteDelivered.uri)) true).bytes, none⟩⟩

theorem noteServer_refusal {table : RouteTable} {m : MatchedRoute} {result : Except Error Response}
    (haccepts : (noteServer table result).Accepts noteDelivered m "request-1".toList 1000000000 1
      usersService) :
    (noteServer table result).refuse noteDelivered [] [] overloaded = some noteRefusal := by
  have hencode : encodeProblem jsonCrates overloaded "request-1".toList
      (some (uriPath noteDelivered.uri)) true = some noteRefusal := noteError_encoded rfl
  unfold HttpServer.refuse HttpApp.call
  rw [haccepts.run_refused]
  simp only [HttpApp.respond]
  rw [show (noteServer table result).crates = jsonCrates from rfl, Option.getD_some, hencode]
  rfl

/-- The response, in one frame. -/
def noteRefusalReceived : ReceivedResponse where
  status := sentStatus overloaded
  version := .http11
  headers := noteErrorHeaders
  body := [.data noteRefusal.body.bytes]

theorem remote_call_refused_note : ∃ table e L' clientHeld',
    RouteTable.build .utf8 [noteRoute, ownNotesRoute] = .ok table ∧
    (noteServer table (.error noteExists)).refuse noteDelivered [] [] (admissionError .queueFull) =
      some noteRefusal ∧
    (receiveResponse plainCrates.parseMime jsonCrates 0 .post "application/json".toList
      "request-1".toList true 8192 0 noteRefusalReceived).exec (tightBudget 8192) .empty [] =
        some (some (.error e), L', clientHeld') ∧
    ErrorArrives overloaded e := by
  obtain ⟨table, hbuild⟩ := build_notes
  obtain ⟨m, -, -, haccepts, -, -⟩ := noteServer_invokes hbuild (.error noteExists)
  have hrefuses := noteServer_refusal haccepts
  obtain ⟨answer, hrefuse, harrives⟩ :=
    remote_call_refused .queueFull jsonCrates_documented (noteServer_hosts hbuild (.error noteExists))
      callFits_note.dispatches callFits_note.pairs noteCall_encoded rfl (by decide)
      (fun h => absurd h (by decide)) noteSent_eq noteDelivered_carried noteDelivered_accepted [] []
  obtain rfl : noteRefusal = answer := Option.some.inj (hrefuses.symm.trans hrefuse)
  have hlength : noteRefusal.body.bytes.length ≤ EMERGENCY_PROBLEM_LIMIT :=
    (boundedProblem_fullProblem overloaded (some (uriPath noteDelivered.uri)) true
      jsonCrates_documented rfl).2
  have hroom : Ledger.empty.used 0 + chunked noteRefusal.body.bytes.length ≤ tightBudget 8192 0 :=
    (Nat.add_le_add_left (chunked_mono hlength) _).trans (by decide)
  obtain ⟨e, L', clientHeld', hreceive, harrive⟩ :=
    harrives (@noteError_delivered noteRefusal rfl) hroom
  refine ⟨table, e, L', clientHeld', hbuild, hrefuses, hreceive, harrive ?_⟩
  exact ⟨by decide, hlength.trans (by decide), fun h => nomatch h.2.2.2⟩

end Fusen.Server
