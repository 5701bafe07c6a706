import Fusen.Wire.Controls
import Fusen.Wire.ProblemDocuments

/-!
# Both sides of the control headers

`controls_agree`: the request of an attempt is accepted by a server of the same service,
which obtains the id, the attempt number and the time that is left, in whole
milliseconds; a service with another group or version rejects it.
-/

namespace Fusen.Wire

open Lib Contract Resilience

/-! ## Header by header -/

/-- What the server finds under a name. -/
def ReadsAs (headers : HeaderMap) (name : HeaderName) (value : Option Text) : Prop :=
  match value with
  | none => headers.getAll name = []
  | some text => ∃ v : HeaderValue, headers.getAll name = [v] ∧ v.toStr = some text

theorem ReadsAs.frame {headers headers' : HeaderMap} {name : HeaderName} {value : Option Text}
    (h : ReadsAs headers name value) (hsame : headers'.getAll name = headers.getAll name) :
    ReadsAs headers' name value := by
  unfold ReadsAs at h ⊢
  rw [hsame]
  exact h

/-- One header was written, the others are as before. -/
structure Inserted (headers headers' : HeaderMap) (name : HeaderName) (value : Option Text) :
    Prop where
  reads : ReadsAs headers' name value
  others : ∀ n, n ≠ name → headers'.getAll n = headers.getAll n

theorem insertControl_plain (headers : HeaderMap) (name : HeaderName) {value : Text}
    (h : value.all isPlainChar = true) (message : String) :
    ∃ headers', insertControl headers name value message = .ok headers' ∧
      Inserted headers headers' name (some value) := by
  obtain ⟨v, hv, hstr⟩ := fromStr_plain h
  refine ⟨headers.insert name v, ?_, ?_, ?_⟩
  · unfold insertControl
    rw [hv]
  · exact ⟨v, by rw [HeaderMap.getAll_insert, if_pos rfl], hstr⟩
  · intro n hn
    rw [HeaderMap.getAll_insert, if_neg hn.symm]

theorem isIdentityComponent_plain {s : Text} (h : isIdentityComponent s = true) :
    s.all isPlainChar = true := by
  rw [isIdentityComponent, Bool.and_eq_true] at h
  rw [List.all_eq_true] at h ⊢
  intro c hc
  have hc := h.2 c hc
  simp only [isIdentityChar, Bool.or_eq_true, beq_iff_eq] at hc
  rcases hc with ((hc | rfl) | rfl) | rfl
  · exact isPlainChar_isAlphanum hc
  all_goals decide

theorem insertOptionalControl_plain (headers : HeaderMap) (name : HeaderName) {value : Option Text}
    (h : ∀ s ∈ value, isIdentityComponent s = true) (hnone : headers.getAll name = [])
    (message : String) :
    ∃ headers', insertOptionalControl headers name value message = .ok headers' ∧
      Inserted headers headers' name value := by
  cases value with
  | none => exact ⟨headers, rfl, hnone, fun _ _ => rfl⟩
  | some s => exact insertControl_plain headers name (isIdentityComponent_plain (h s rfl)) message

/-! ## What is sent -/

/-- The control headers of a request. -/
structure SentControls (headers : HeaderMap) (id : Text) (remaining attemptNumber : Nat)
    (service : ServiceSelector) : Prop where
  id : ReadsAs headers requestId (some id)
  timeout : ReadsAs headers timeoutMs (some (decimal (timeoutMillis remaining)))
  attempt : ReadsAs headers Wire.attempt (some (decimal attemptNumber))
  group : ReadsAs headers serviceGroup service.group
  version : ReadsAs headers serviceVersion service.version

theorem rejectEncodedHeaders_ok {headers : HeaderMap} {names : List HeaderName}
    (h : rejectEncodedHeaders headers names = .ok ()) : ∀ n ∈ names, headers.getAll n = [] := by
  induction names with
  | nil => exact fun n hn => absurd hn List.not_mem_nil
  | cons name names ih =>
    unfold rejectEncodedHeaders at h
    split at h
    · cases h
    · rename_i hcontains
      intro n hn
      rcases List.mem_cons.mp hn with rfl | hn
      · exact (HeaderMap.containsKey_eq_false_iff headers n).mp (by simpa using hcontains)
      · exact ih h n hn

theorem insertControls_sent {headers : HeaderMap}
    (hheaders : rejectEncodedHeaders headers refusedEncodedHeaders = .ok ()) {id : Text}
    (hid : requestIdIsValid id = true) (remaining attemptNumber : Nat) (service : ServiceSelector) :
    ∃ headers', insertControls headers id remaining attemptNumber service = .ok headers' ∧
      SentControls headers' id remaining attemptNumber service := by
  have hnone := rejectEncodedHeaders_ok hheaders
  obtain ⟨h₁, hok₁, hid₁⟩ := insertControl_plain headers requestId (requestId_plain hid).2
    "invalid generated request ID"
  obtain ⟨h₂, hok₂, ht₂⟩ := insertControl_plain h₁ timeoutMs
    (decimal_plain (timeoutMillis remaining)) "invalid timeout header"
  obtain ⟨h₃, hok₃, ha₃⟩ := insertControl_plain h₂ attempt (decimal_plain attemptNumber)
    "invalid attempt header"
  have hgroup : h₃.getAll serviceGroup = [] := by
    rw [ha₃.others _ (by decide), ht₂.others _ (by decide), hid₁.others _ (by decide)]
    exact hnone _ (by decide)
  obtain ⟨h₄, hok₄, hg₄⟩ := insertOptionalControl_plain h₃ serviceGroup service.group_valid hgroup
    "invalid service group"
  have hversion : h₄.getAll serviceVersion = [] := by
    rw [hg₄.others _ (by decide), ha₃.others _ (by decide), ht₂.others _ (by decide),
      hid₁.others _ (by decide)]
    exact hnone _ (by decide)
  obtain ⟨h₅, hok₅, hv₅⟩ := insertOptionalControl_plain h₄ serviceVersion service.version_valid
    hversion "invalid service version"
  refine ⟨h₅, ?_, ?_, ?_, ?_, ?_, hv₅.reads⟩
  · unfold insertControls
    rw [hok₁]
    show (insertControl h₁ _ _ _ >>= _) = _
    rw [hok₂]
    show (insertControl h₂ _ _ _ >>= _) = _
    rw [hok₃]
    show (insertOptionalControl h₃ _ _ _ >>= _) = _
    rw [hok₄]
    exact hok₅
  · exact (((hid₁.reads.frame (ht₂.others _ (by decide))).frame (ha₃.others _ (by decide))).frame
      (hg₄.others _ (by decide))).frame (hv₅.others _ (by decide))
  · exact ((ht₂.reads.frame (ha₃.others _ (by decide))).frame (hg₄.others _ (by decide))).frame
      (hv₅.others _ (by decide))
  · exact (ha₃.reads.frame (hg₄.others _ (by decide))).frame (hv₅.others _ (by decide))
  · exact hg₄.reads.frame (hv₅.others _ (by decide))

/-! ## What is received -/

theorem oneHeader_readsAs {headers : HeaderMap} {name : HeaderName} {text : Text}
    (h : ReadsAs headers name (some text)) :
    ∃ v : HeaderValue, oneHeader headers name = .ok (some v) ∧ v.toStr = some text := by
  obtain ⟨v, hv, hstr⟩ := h
  refine ⟨v, ?_, hstr⟩
  unfold oneHeader
  rw [hv]

/-- The deadline that a request hands over. -/
def wireTimeout (remaining : Nat) : Nat := timeoutMillis remaining * nanosPerMilli

/-- **The server's deadline is never the later one.** -/
theorem wireTimeout_le (remaining : Nat) : wireTimeout remaining ≤ remaining := by
  unfold wireTimeout timeoutMillis nanosPerMilli
  omega

theorem parseRequestControl_sent {headers : HeaderMap} {id : Text} {remaining attemptNumber : Nat}
    {service : ServiceSelector} (h : SentControls headers id remaining attemptNumber service)
    (hid : requestIdIsValid id = true) (hattempt : 0 < attemptNumber ∧ attemptNumber < 256)
    (localTimeout : Nat) (freshId : Text) :
    parseRequestControl headers localTimeout freshId =
      .ok ⟨id, min localTimeout (wireTimeout remaining), attemptNumber⟩ := by
  obtain ⟨v₁, hone₁, hstr₁⟩ := oneHeader_readsAs h.id
  obtain ⟨v₂, hone₂, hstr₂⟩ := oneHeader_readsAs h.timeout
  obtain ⟨v₃, hone₃, hstr₃⟩ := oneHeader_readsAs h.attempt
  have hmax : timeoutMillis remaining ≤ MAX_TIMEOUT_MS := Nat.min_le_right _ _
  have hlt : timeoutMillis remaining < 2 ^ 64 := by
    unfold MAX_TIMEOUT_MS at hmax
    omega
  have hidParsed : parseRequestId freshId (some v₁) = .ok id := by
    simp only [parseRequestId, hstr₁, validateRequestId, if_pos hid]
    rfl
  have htimeout : parseTimeout localTimeout (some v₂) = .ok (wireTimeout remaining) := by
    simp only [parseTimeout, hstr₂, Option.bind_some, parseUnsigned_decimal hlt]
    rw [if_neg (Nat.not_lt.mpr hmax)]
    rfl
  have hattemptParsed : parseAttempt (some v₃) = .ok attemptNumber := by
    have hlt : attemptNumber < 2 ^ 8 := hattempt.2
    simp only [parseAttempt, hstr₃, Option.bind_some, parseUnsigned_decimal hlt,
      Option.filter_some, hattempt.1, decide_true, if_true]
  unfold parseRequestControl
  rw [hone₁, hone₂, hone₃]
  show (parseRequestId freshId (some v₁) >>= _) = _
  rw [hidParsed]
  show (parseTimeout localTimeout (some v₂) >>= _) = _
  rw [htimeout]
  show (parseAttempt (some v₃) >>= _) = _
  rw [hattemptParsed]
  rfl

theorem validateServiceControl_iff {headers : HeaderMap} {name : HeaderName} {value : Option Text}
    (h : ReadsAs headers name value) (expected : Option Text) (mismatch : Error) :
    validateServiceControl headers name expected mismatch = .ok () ↔ expected = value := by
  unfold validateServiceControl
  cases value with
  | none =>
    have hnone : headers.getAll name = [] := h
    rw [hnone]
    by_cases he : expected = none
    · simp [he]
    · simp [he]
  | some text =>
    obtain ⟨v, hv, hstr⟩ := h
    rw [hv]
    simp only [hstr]
    by_cases he : expected = some text
    · simp [he]
    · simp [he]

theorem validateServiceControls_iff {headers : HeaderMap} {id : Text}
    {remaining attemptNumber : Nat} {service : ServiceSelector}
    (h : SentControls headers id remaining attemptNumber service) (group version : Option Text) :
    validateServiceControls headers group version = .ok () ↔
      group = service.group ∧ version = service.version := by
  have hgroup := validateServiceControl_iff h.group group serviceGroupMismatch
  have hversion := validateServiceControl_iff h.version version serviceVersionMismatch
  unfold validateServiceControls
  cases hfirst : validateServiceControl headers serviceGroup group serviceGroupMismatch with
  | error e =>
    rw [hfirst] at hgroup
    have hne : group ≠ service.group := fun heq => absurd (hgroup.mpr heq) nofun
    simp [hne]
    nofun
  | ok u =>
    rw [hfirst] at hgroup
    rw [← hversion]
    exact ⟨fun hok => ⟨hgroup.mp rfl, hok⟩, fun hok => hok.2⟩

/-! ## Agreement -/

/-- **Client and server agree on the control headers** of every attempt. -/
theorem controls_agree (isUri : Text → Bool) (template : RequestTemplate) (endpoint uri : Text)
    (version : HttpVersion) (service : ServiceSelector) (method : MethodDescriptor) (id : Text)
    (remaining maxAttempts attemptNumber : Nat)
    (huri : endpointUri isUri endpoint template.pathAndQuery = .ok uri)
    (hid : requestIdIsValid id = true)
    (hattempt : LoopAttempt maxAttempts method.allowsRetries attemptNumber) :
    ∃ request, template.toRequest isUri endpoint version id remaining attemptNumber true service =
        .ok request ∧
      (∀ localTimeout freshId, parseRequestControl request.headers localTimeout freshId =
        .ok ⟨id, min localTimeout (wireTimeout remaining), attemptNumber⟩) ∧
      wireTimeout remaining ≤ remaining ∧
      validateAttempt attemptNumber method.allowsRetries = .ok () ∧
      ∀ server : ServiceSelector,
        validateServiceControls request.headers server.group server.version = .ok () ↔
          server.group = service.group ∧ server.version = service.version := by
  obtain ⟨headers, hinsert, hsent⟩ :=
    insertControls_sent template.valid hid remaining attemptNumber service
  obtain ⟨hpos, hlimit, hmethod⟩ := hattempt.bounds
  have hlt : attemptNumber < 256 := by
    have := (hardAttemptLimit_le maxAttempts).1
    unfold HARD_MAX_ATTEMPTS at this
    omega
  refine ⟨⟨template.method, version, uri, headers, template.body⟩, ?_, ?_, wireTimeout_le remaining,
    ?_, fun server => validateServiceControls_iff hsent _ _⟩
  · unfold RequestTemplate.toRequest
    rw [huri]
    show (insertControls _ _ _ _ _ >>= _) = _
    rw [hinsert]
    rfl
  · exact parseRequestControl_sent hsent hid ⟨hpos, hlt⟩
  · unfold validateAttempt
    rw [if_neg]
    rintro ⟨hretry, hnot⟩
    rw [hmethod hretry] at hnot
    cases hnot

/-- A second attempt with half a millisecond left. -/
theorem controls_agree_retry :
    let method : MethodDescriptor := usersMethod
    let service : ServiceSelector :=
      ⟨"users".toList, some "blue".toList, none, [], by decide, by decide,
        isIdentityComponent_of_mem_none, validateUserMetadata_nil, List.nodup_nil⟩
    let template : RequestTemplate := ⟨.get, "/users".toList, .empty, [], rfl⟩
    ∃ request, template.toRequest (fun _ => true) "http://a/".toList .http11 "request-1".toList 500000
        2 true service = .ok request ∧
      parseRequestControl request.headers 1000000000 [] = .ok ⟨"request-1".toList, 0, 2⟩ ∧
      validateAttempt 2 method.allowsRetries = .ok () := by
  intro method service template
  have hgranted : Granted standardRetryPolicy
      (.new 1 3 method.allowsRetries .unavailable 1000) :=
    ⟨by decide, by decide, by decide, by decide, by decide⟩
  obtain ⟨request, hrequest, hparse, -, hattempt, -⟩ := controls_agree (fun _ => true) template "http://a/".toList
    "http://a/users".toList .http11 service method "request-1".toList 500000 3 2 (by rfl) (by decide)
    (.next .first hgranted)
  exact ⟨request, hrequest, hparse 1000000000 [], hattempt⟩

end Fusen.Wire
