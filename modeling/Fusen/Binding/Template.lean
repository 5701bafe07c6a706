import Fusen.Binding.Arrival
import Fusen.Wire.ControlsAgree

/-!
# Request templates (`wire/mod.rs`)

`encodeRequestTemplate` encodes a call once, for all its attempts; each attempt sends it with
control headers of its own.  `CarriedRequest.delivered`: a server obtains the call that was
encoded, whatever the attempt.
-/

namespace Fusen.Binding

open Lib Contract Wire Server Fusen.Runtime

/-! ## The template of a call -/

def requestTooLarge : Error :=
  .framework .payloadTooLarge "request_too_large"
    "encoded request body exceeds the configured limit".toList

def requestBudgetExhausted : Error :=
  .framework .resourceExhausted "request_byte_budget_exhausted"
    "client request byte budget is exhausted".toList

theorem rejectEncodedHeaders_of_validate {isPathAndQuery : Text → Bool} {method encoded : Method}
    {pathAndQuery : Text} {headers : HeaderMap}
    (h : validateEncodedRequest isPathAndQuery method encoded pathAndQuery headers = .ok ()) :
    rejectEncodedHeaders headers refusedEncodedHeaders = .ok () := by
  unfold validateEncodedRequest at h
  by_cases hmethod : encoded ≠ method
  · rw [if_pos hmethod] at h
    cases h
  · rw [if_neg hmethod] at h
    by_cases hpath : pathAndQuery.head? ≠ some '/' ∨ isPathAndQuery pathAndQuery = false
    · rw [if_pos hpath] at h
      cases h
    · rwa [if_neg hpath] at h

/-- The template with the permit of its body. -/
def encodeRequestTemplate (codec : PercentCodec) (isPathAndQuery : Text → Bool)
    (request : RequestEncoding) (maxBody budget : Nat) :
    Prog (Except Error (RequestTemplate × Nat)) :=
  match encodeJsonRequest codec request with
  | .error e => .pure (.error e.withLocalOrigin)
  | .ok encoded =>
    match h : validateEncodedRequest isPathAndQuery request.operation.method encoded.method
        encoded.pathAndQuery encoded.headers with
    | .error e => .pure (.error e)
    | .ok () =>
      if encoded.body.length > maxBody then .pure (.error requestTooLarge)
      else
        .tryReserve budget encoded.body.length fun
          | none => .pure (.error requestBudgetExhausted)
          | some permit => .pure (.ok (⟨encoded.method, encoded.pathAndQuery, encoded.headers,
              encoded.body, rejectEncodedHeaders_of_validate h⟩, permit))

/-- What a template is made of. -/
structure TemplateOf (codec : PercentCodec) (request : RequestEncoding) (encoded : EncodedRequest)
    (template : RequestTemplate) : Prop where
  encodes : encodeJsonRequest codec request = .ok encoded
  method : template.method = encoded.method
  pathAndQuery : template.pathAndQuery = encoded.pathAndQuery
  headers : template.headers = encoded.headers
  body : template.body = encoded.body

theorem encodeRequestTemplate_ends (codec : PercentCodec) (isPathAndQuery : Text → Bool)
    (request : RequestEncoding) (maxBody budget : Nat) :
    (encodeRequestTemplate codec isPathAndQuery request maxBody budget).Ends fun r =>
      ∀ template permit, r = .ok (template, permit) →
        ∃ encoded, TemplateOf codec request encoded template := by
  unfold encodeRequestTemplate
  cases hencode : encodeJsonRequest codec request with
  | error e => rintro _ _ ⟨⟩
  | ok encoded =>
    dsimp only
    split
    · rintro _ _ ⟨⟩
    · split
      · rintro _ _ ⟨⟩
      · intro permit
        cases permit with
        | none => rintro _ _ ⟨⟩
        | some permit =>
          rintro _ _ ⟨⟩
          exact ⟨encoded, hencode, rfl, rfl, rfl, rfl⟩

/-! ## The request of an attempt -/

/-- The names of the control headers. -/
def controlNames : List HeaderName := [requestId, timeoutMs, attempt, serviceGroup, serviceVersion]

/-- Two header maps with the same headers under other names than those of the controls. -/
def SameButControls (headers headers' : HeaderMap) : Prop :=
  ∀ keep : HeaderName → Bool, (∀ name ∈ controlNames, keep name = false) →
    (headers'.entries.filter fun e => keep e.1) = headers.entries.filter fun e => keep e.1

theorem SameButControls.refl (headers : HeaderMap) : SameButControls headers headers :=
  fun _ _ => rfl

theorem SameButControls.insertControl {headers headers' headers'' : HeaderMap}
    (h : SameButControls headers headers') {name : HeaderName} (hname : name ∈ controlNames)
    {value : Text} {message : String}
    (hinsert : insertControl headers' name value message = .ok headers'') :
    SameButControls headers headers'' := by
  intro keep hkeep
  unfold Wire.insertControl at hinsert
  split at hinsert
  · cases hinsert
    rw [HeaderMap.filter_insert _ _ _ (hkeep name hname)]
    exact h keep hkeep
  · cases hinsert

theorem SameButControls.insertOptionalControl {headers headers' headers'' : HeaderMap}
    (h : SameButControls headers headers') {name : HeaderName} (hname : name ∈ controlNames)
    {value : Option Text} {message : String}
    (hinsert : insertOptionalControl headers' name value message = .ok headers'') :
    SameButControls headers headers'' := by
  cases value with
  | none =>
    cases hinsert
    exact h
  | some text => exact h.insertControl hname hinsert

theorem sameButControls_insertControls {headers headers' : HeaderMap} {id : Text}
    {remaining attemptNumber : Nat} {service : ServiceSelector}
    (h : insertControls headers id remaining attemptNumber service = .ok headers') :
    SameButControls headers headers' := by
  unfold insertControls at h
  obtain ⟨h₁, hid, h⟩ := Except.bind_eq_ok_iff.mp h
  obtain ⟨h₂, htimeout, h⟩ := Except.bind_eq_ok_iff.mp h
  obtain ⟨h₃, hattempt, h⟩ := Except.bind_eq_ok_iff.mp h
  obtain ⟨h₄, hgroup, hversion⟩ := Except.bind_eq_ok_iff.mp h
  have hsame := (((SameButControls.refl headers).insertControl (by decide) hid).insertControl
    (by decide) htimeout).insertControl (by decide) hattempt
  exact (hsame.insertOptionalControl (by decide) hgroup).insertOptionalControl (by decide) hversion

theorem SameButControls.applicationHeaders {headers headers' : HeaderMap}
    (h : SameButControls headers headers') :
    applicationHeaders headers' = applicationHeaders headers := by
  have hentries : (Wire.applicationHeaders headers').entries =
      (Wire.applicationHeaders headers).entries := by
    rw [entries_applicationHeaders, entries_applicationHeaders]
    exact h isApplicationHeader (by decide)
  exact congrArg HeaderMap.mk hentries

theorem SameButControls.getAll {headers headers' : HeaderMap} (h : SameButControls headers headers')
    {name : HeaderName} (hname : name ∉ controlNames) :
    headers'.getAll name = headers.getAll name := by
  unfold HeaderMap.getAll
  refine congrArg (List.map Prod.snd) (h (fun n => decide (n = name)) fun n hn => ?_)
  rw [decide_eq_false_iff_not]
  rintro rfl
  exact hname hn

/-- What an attempt sends. -/
structure SentAttempt (template : RequestTemplate) (id : Text) (remaining attemptNumber : Nat)
    (service : ServiceSelector) (sent : HttpRequest) : Prop where
  method : sent.method = template.method
  body : sent.body = template.body
  others : SameButControls template.headers sent.headers
  controls : SentControls sent.headers id remaining attemptNumber service

theorem sentAttempt_of_toRequest {isUri : Text → Bool} {template : RequestTemplate}
    {endpoint : Text} {version : HttpVersion} {id : Text} {remaining attemptNumber : Nat}
    {service : ServiceSelector} {sent : HttpRequest} (hid : requestIdIsValid id = true)
    (h : template.toRequest isUri endpoint version id remaining attemptNumber true service =
      .ok sent) : SentAttempt template id remaining attemptNumber service sent := by
  obtain ⟨headers, hinsert, hcontrols⟩ :=
    insertControls_sent template.valid hid remaining attemptNumber service
  unfold RequestTemplate.toRequest at h
  obtain ⟨uri, -, h⟩ := Except.bind_eq_ok_iff.mp h
  obtain ⟨written, hwritten, h⟩ := Except.bind_eq_ok_iff.mp h
  rw [hinsert] at hwritten
  cases hwritten
  cases h
  exact ⟨rfl, rfl, sameButControls_insertControls hinsert, hcontrols⟩

/-! ## What the server obtains -/

/-- An attempt as the server obtains it: the target without the endpoint, the body in any
frames, with a `Content-Length` or without; the other headers are as they were sent. -/
structure CarriedRequest (template : RequestTemplate) (sent : HttpRequest) (frames : List Frame)
    (delivered : HttpRequest) (events : List BodyEvent) : Prop where
  method : delivered.method = sent.method
  target : delivered.uri = template.pathAndQuery
  controls : ∀ name ∈ controlNames, delivered.headers.getAll name = sent.headers.getAll name
  application : applicationHeaders delivered.headers = applicationHeaders sent.headers
  type : delivered.headers.getAll contentType = sent.headers.getAll contentType
  length : delivered.headers.getAll contentLength = [] ∨ ∃ v,
    delivered.headers.getAll contentLength = [v] ∧ v.toStr = some (decimal sent.body.length)
  unchunked : sent.body = [] → delivered.headers.containsKey transferEncoding = false
  events : events = frames.map Frame.event
  body : assemble frames = sent.body

/-- **The call that was encoded is what the server reads**, in every attempt. -/
theorem CarriedRequest.deliveredRequest {codec : PercentCodec} {request : RequestEncoding}
    {encoded : EncodedRequest} {template : RequestTemplate} {id : Text}
    {remaining attemptNumber : Nat} {service : ServiceSelector} {sent delivered : HttpRequest}
    {frames : List Frame} {events : List BodyEvent}
    (htemplate : TemplateOf codec request encoded template)
    (hsent : SentAttempt template id remaining attemptNumber service sent)
    (h : CarriedRequest template sent frames delivered events) :
    DeliveredRequest encoded frames
      ⟨delivered.method, delivered.uri, delivered.headers, events⟩ := by
  have hbody : sent.body = encoded.body := hsent.body.trans htemplate.body
  have hothers : SameButControls encoded.headers sent.headers := htemplate.headers ▸ hsent.others
  refine ⟨?_, ?_, ?_, ?_, hbody ▸ h.length, fun hempty => h.unchunked (hbody.trans hempty),
    h.events, h.body.trans hbody⟩
  · exact (h.method.trans hsent.method).trans htemplate.method
  · exact h.target.trans htemplate.pathAndQuery
  · exact h.application.trans hothers.applicationHeaders
  · exact h.type.trans (hothers.getAll (by decide))

theorem CarriedRequest.sentControls {template : RequestTemplate} {id : Text}
    {remaining attemptNumber : Nat} {service : ServiceSelector} {sent delivered : HttpRequest}
    {frames : List Frame} {events : List BodyEvent}
    (hsent : SentAttempt template id remaining attemptNumber service sent)
    (h : CarriedRequest template sent frames delivered events) :
    SentControls delivered.headers id remaining attemptNumber service where
  id := hsent.controls.id.frame (h.controls _ (by decide))
  timeout := hsent.controls.timeout.frame (h.controls _ (by decide))
  attempt := hsent.controls.attempt.frame (h.controls _ (by decide))
  group := hsent.controls.group.frame (h.controls _ (by decide))
  version := hsent.controls.version.frame (h.controls _ (by decide))

end Fusen.Binding
