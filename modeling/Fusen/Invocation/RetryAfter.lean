import Fusen.Invocation.Attempts
import Fusen.Wire.ProblemHints

/-!
# `Retry-After` on the decode paths of errors

The built-in error decoder builds an error in four places.  `honoursRetryAfter_iff`: an
error that may be retried has the delay of the response's `Retry-After` as its hint, and
the retry loop waits that long, unless the problem names another status than the response
or the seconds do not fit 64 bits.
-/

namespace Fusen.Wire

open Lib Invocation

/-! ## The error decoder of `JsonCodec` -/

structure BufferedResponse where
  status : StatusCode
  headers : HeaderMap
  body : List UInt8
  requestId : Text
  invocationControls : Bool

def remoteHeadError : ErrorCode := ⟨"remote_head_error".toList, by decide⟩

def decodeHeadError (crates : Crates) (now : Nat) (status : StatusCode) (expectedId : Text)
    (headers : HeaderMap) : Error :=
  (Error.fromRemoteParts
    { kind := .framework, category := categoryFromStatus status, code := remoteHeadError
      message := (crates.canonicalReason status).getD "remote HEAD request failed".toList
      status, requestId := expectedId, details := none
      retryHint := normalizedRetryHint crates now .framework status headers }).withHeaders headers

/-- `<JsonCodec as ErrorDecoder>::decode`. -/
def decodeError (crates : Crates) (now : Nat) (method : Method) (response : BufferedResponse) :
    Error :=
  if method = .head ∧ response.body = [] then
    decodeHeadError crates now response.status response.requestId response.headers
  else
    decodeProblem crates now response.status response.requestId response.body response.headers
      response.invocationControls

/-! ## What a response asks for -/

/-- `1*DIGIT`, of any length. -/
def deltaSeconds (text : Text) : Option Nat :=
  if text ≠ [] ∧ text.all Char.isDigit = true then some (Nat.ofDigitChars 10 text 0) else none

/-- The text of the one `Retry-After` header. -/
def retryAfterText (headers : HeaderMap) : Option Text :=
  match headers.getAll retryAfter with
  | [value] => value.toStr
  | _ => none

def askedSeconds (headers : HeaderMap) : Option Nat := (retryAfterText headers).bind deltaSeconds

/-- The delay in nanoseconds, from seconds or a date. -/
def askedDelay (crates : Crates) (now : Nat) (headers : HeaderMap) : Option Nat :=
  (retryAfterText headers).bind fun text =>
    match deltaSeconds text with
    | some seconds => some (seconds * 10 ^ 9)
    | none => (crates.parseHttpDate text).map fun deadline => deadline * 10 ^ 9 - now

/-- An HTTP-date begins with the name of a day. -/
def Crates.DatesNameDays (crates : Crates) : Prop :=
  ∀ text deadline, crates.parseHttpDate text = some deadline →
    ∃ c ∈ text.head?, c.isAlpha = true

/-- **What is asked for is the hint, and the retry loop waits for it.** -/
def HonoursRetryAfter (crates : Crates) (now : Nat) (method : Method)
    (response : BufferedResponse) : Prop :=
  ∀ delay, askedDelay crates now response.headers = some delay →
    let e := decodeError crates now method response
    e.retryHint.isRetryable = true →
      e.retryHint = .after delay ∧
        ∀ (client : Client) (world : AttemptWorld) (attempt : Nat),
          delay ≤ retryDelay client world attempt e.retryHint.retryAfter

/-! ## When it is honoured -/

/-- A problem outside the reserved types that names another status than the response. -/
def Disagrees (status : StatusCode) (problem : ProblemDetails) : Prop :=
  problem.status ≠ status.code ∧ isReserved problem.typeUri = false

instance (status : StatusCode) (problem : ProblemDetails) : Decidable (Disagrees status problem) :=
  inferInstanceAs (Decidable (_ ∧ _))

/-- The response has a body that is read as a problem. -/
def readProblem (crates : Crates) (method : Method) (response : BufferedResponse) :
    Option ProblemDetails :=
  if method = .head ∧ response.body = [] then none
  else ProblemDetails.fromSlice crates response.body

/-- The responses that are decoded to an error that may be retried. -/
def MayRetry (crates : Crates) (now : Nat) (method : Method) (response : BufferedResponse) : Prop :=
  isTransientStatus response.status = true ∧
    if method = .head ∧ response.body = [] then True
    else
      match ProblemDetails.fromSlice crates response.body with
      | none => response.status.isClientError = false
      | some problem =>
        if Disagrees response.status problem then response.status.isClientError = false
        else
          ∃ category, validateProblem crates now response.status response.requestId problem
            response.invocationControls = .ok ⟨.framework, category⟩

def ReadsRetryAfter (crates : Crates) (method : Method) (response : BufferedResponse) : Prop :=
  (∀ seconds ∈ askedSeconds response.headers, seconds < 2 ^ 64) ∧
    ∀ problem ∈ readProblem crates method response, ¬ Disagrees response.status problem

/-! ## The header -/

theorem parseRetryAfter_eq (crates : Crates) (now : Nat) (headers : HeaderMap) :
    parseRetryAfter crates now headers = (retryAfterText headers).bind fun text =>
      match parseUnsigned (2 ^ 64) text with
      | some seconds => some (seconds * 10 ^ 9)
      | none => (crates.parseHttpDate text).map fun deadline => deadline * 10 ^ 9 - now := by
  unfold parseRetryAfter retryAfterText
  rcases headers.getAll retryAfter with _ | ⟨value, _ | ⟨value', values⟩⟩ <;> rfl

/-- Digits are read as the seconds they say, if these fit the type. -/
theorem parseUnsigned_of_deltaSeconds {text : Text} {seconds bound : Nat}
    (h : deltaSeconds text = some seconds) :
    parseUnsigned bound text = if seconds < bound then some seconds else none := by
  obtain ⟨⟨hne, hdigits⟩, hvalue⟩ := Option.ite_none_right_eq_some.mp h
  have hvalue := Option.some.inj hvalue
  have hplus : text.head? ≠ some '+' := by
    intro hhead
    have := List.all_eq_true.mp hdigits '+' (List.mem_of_mem_head? hhead)
    exact absurd this (by decide)
  unfold parseUnsigned
  simp only [if_neg hplus, hvalue, hne, hdigits, ne_eq, not_false_eq_true, true_and]

/-- A date is neither digits nor a number with a sign. -/
theorem parseUnsigned_of_date {crates : Crates} (hdates : crates.DatesNameDays) {text : Text}
    {deadline : Nat} (bound : Nat) (h : crates.parseHttpDate text = some deadline) :
    parseUnsigned bound text = none ∧ deltaSeconds text = none := by
  obtain ⟨c, hc, halpha⟩ := hdates text deadline h
  obtain ⟨rest, rfl⟩ : ∃ rest, text = c :: rest := by
    cases text with
    | nil => cases hc
    | cons d rest =>
      cases hc
      exact ⟨rest, rfl⟩
  have hdigit : c.isDigit = false := by
    by_contra hdigit
    rw [Bool.not_eq_false, isDigit_iff] at hdigit
    rw [isAlpha_iff, isUpper_iff, isLower_iff] at halpha
    omega
  have hplus : c ≠ '+' := by
    rintro rfl
    exact absurd halpha (by decide)
  unfold parseUnsigned deltaSeconds
  simp [hplus, hdigit]

/-- The delay the code reads is the one that is asked for, if its seconds fit; otherwise
it reads none. -/
theorem parseRetryAfter_of_askedDelay {crates : Crates} (hdates : crates.DatesNameDays)
    {now delay : Nat} {headers : HeaderMap} (h : askedDelay crates now headers = some delay) :
    parseRetryAfter crates now headers = some delay ∧
        (∀ seconds ∈ askedSeconds headers, seconds < 2 ^ 64) ∨
      parseRetryAfter crates now headers = none ∧
        ¬ ∀ seconds ∈ askedSeconds headers, seconds < 2 ^ 64 := by
  rw [parseRetryAfter_eq]
  unfold askedDelay at h
  unfold askedSeconds
  obtain ⟨text, htext, h⟩ := Option.bind_eq_some_iff.mp h
  rw [htext, Option.bind_some, Option.bind_some]
  split at h
  · rename_i seconds hdelta
    have hnodate : crates.parseHttpDate text = none := by
      by_contra hne
      obtain ⟨deadline, hdate⟩ := Option.ne_none_iff_exists'.mp hne
      have := (parseUnsigned_of_date hdates (2 ^ 64) hdate).2
      rw [hdelta] at this
      cases this
    rw [parseUnsigned_of_deltaSeconds hdelta, hdelta]
    by_cases hlt : seconds < 2 ^ 64
    · rw [if_pos hlt]
      refine Or.inl ⟨h, ?_⟩
      rintro n ⟨⟩
      exact hlt
    · rw [if_neg hlt, hnodate]
      exact Or.inr ⟨rfl, fun hall => hlt (hall seconds rfl)⟩
  · rename_i hdelta
    obtain ⟨deadline, hdate, -⟩ := Option.map_eq_some_iff.mp h
    rw [(parseUnsigned_of_date hdates _ hdate).1, hdelta]
    exact Or.inl ⟨h, nofun⟩

/-! ## The four paths -/

section

variable {crates : Crates} {now : Nat} {method : Method} {response : BufferedResponse}

theorem isTransientStatus_isServerError {status : StatusCode}
    (h : isTransientStatus status = true) (hclient : status.isClientError = false) :
    status.isServerError = true := by
  unfold isTransientStatus at h
  unfold StatusCode.isClientError at hclient
  unfold StatusCode.isServerError
  split at h <;> simp_all

theorem normalizedRetryHint_framework {status : StatusCode} {headers : HeaderMap} :
    (normalizedRetryHint crates now .framework status headers).isRetryable = true ↔
      isTransientStatus status = true := by
  cases hstatus : isTransientStatus status with
  | false =>
    rw [normalizedRetryHint, if_pos (Or.inr hstatus)]
    exact iff_of_false Bool.false_ne_true Bool.false_ne_true
  | true =>
    rw [hint_of_transient hstatus]
    refine iff_of_true ?_ rfl
    split <;> rfl

/-- The hint of an error whose kind is `kind`, from the headers `headers`. -/
theorem statusError_retryHint (status : StatusCode) (id : Text) (headers : HeaderMap) :
    (statusError crates now status id headers).retryHint =
      if status.isClientError = true then .never
      else normalizedRetryHint crates now .framework status headers := by
  show (if (if status.isClientError = true then ErrorKind.application else .framework) =
    .application then RetryHint.never else normalizedRetryHint crates now
      (if status.isClientError = true then .application else .framework) status headers) = _
  by_cases hclient : status.isClientError = true
  · rw [if_pos hclient, if_pos hclient, if_pos rfl]
  · rw [if_neg hclient, if_neg hclient, if_neg (by decide)]

/-- A problem that disagrees with the status has the status error, without headers. -/
theorem validateProblem_of_disagrees {status : StatusCode} {id : Text} {problem : ProblemDetails}
    {strict : Bool} (h : Disagrees status problem) :
    validateProblem crates now status id problem strict =
      if status.isClientError = false ∧ status.isServerError = false then
        .error (invalidProblemStatus "Problem Details requires an HTTP 4xx or 5xx status" id)
      else .error (statusError crates now status id .empty) := by
  unfold validateProblem
  split
  · rfl
  · rw [if_pos h.1, if_neg (by simp [h.2])]

/-- What the hint of a decoded error is computed from. -/
inductive HintSource (crates : Crates) (now : Nat) (method : Method) (response : BufferedResponse) :
    RetryHint → Prop
  /-- The headers of the response. -/
  | headers (hmay : MayRetry crates now method response ↔ isTransientStatus response.status = true)
      (hagree : ∀ problem ∈ readProblem crates method response,
        ¬ Disagrees response.status problem) :
      HintSource crates now method response
        (normalizedRetryHint crates now .framework response.status response.headers)
  /-- No headers: the problem names another status. -/
  | noHeaders
      (hmay : MayRetry crates now method response ↔ isTransientStatus response.status = true)
      {problem : ProblemDetails} (hread : readProblem crates method response = some problem)
      (hdisagrees : Disagrees response.status problem) :
      HintSource crates now method response
        (normalizedRetryHint crates now .framework response.status .empty)
  | never (hmay : ¬ MayRetry crates now method response) : HintSource crates now method response .never

theorem hintSource_decodeProblem (hhead : ¬ (method = .head ∧ response.body = [])) :
    HintSource crates now method response (decodeProblem crates now response.status
      response.requestId response.body response.headers response.invocationControls).retryHint := by
  have hread : readProblem crates method response =
      ProblemDetails.fromSlice crates response.body := if_neg hhead
  unfold decodeProblem
  cases hslice : ProblemDetails.fromSlice crates response.body with
  | none =>
    have hmay : MayRetry crates now method response ↔
        isTransientStatus response.status = true ∧ response.status.isClientError = false := by
      unfold MayRetry
      rw [if_neg hhead, hslice]
    rw [hslice] at hread
    show HintSource _ _ _ _ (statusError crates now response.status _ response.headers).retryHint
    rw [statusError_retryHint]
    by_cases hclient : response.status.isClientError = true
    · rw [if_pos hclient]
      exact .never (by simp [hmay, hclient])
    · rw [if_neg hclient]
      exact .headers (by simpa [hmay] using fun _ => hclient) (by simp [hread])
  | some problem =>
    rw [hslice] at hread
    dsimp only
    by_cases hdisagrees : Disagrees response.status problem
    · have hmay : MayRetry crates now method response ↔
          isTransientStatus response.status = true ∧ response.status.isClientError = false := by
        unfold MayRetry
        rw [if_neg hhead, hslice]
        simp only [if_pos hdisagrees]
      rw [validateProblem_of_disagrees hdisagrees]
      by_cases herror : response.status.isClientError = false ∧ response.status.isServerError = false
      · rw [if_pos herror]
        refine .never fun h => ?_
        obtain ⟨htransient, hclient⟩ := hmay.mp h
        rw [isTransientStatus_isServerError htransient hclient] at herror
        cases herror.2
      · rw [if_neg herror]
        show HintSource _ _ _ _ (statusError crates now response.status _ .empty).retryHint
        rw [statusError_retryHint]
        by_cases hclient : response.status.isClientError = true
        · rw [if_pos hclient]
          exact .never (by simp [hmay, hclient])
        · rw [if_neg hclient]
          exact .noHeaders (by simpa [hmay] using fun _ => hclient) hread hdisagrees
    · have hmay : MayRetry crates now method response ↔ isTransientStatus response.status = true ∧
          ∃ category, validateProblem crates now response.status response.requestId problem
            response.invocationControls = .ok ⟨.framework, category⟩ := by
        unfold MayRetry
        rw [if_neg hhead, hslice]
        simp only [if_neg hdisagrees]
      cases hvalid : validateProblem crates now response.status response.requestId problem
        response.invocationControls with
      | error e =>
        rw [hvalid] at hmay
        have hnot : ¬ MayRetry crates now method response := fun h => by
          obtain ⟨-, _, heq⟩ := hmay.mp h
          cases heq
        rcases validateProblem_error hvalid with hprotocol | ⟨-, hreserved, hstatus, -⟩
        · cases hprotocol <;> exact .never hnot
        · exact absurd ⟨hstatus, hreserved⟩ hdisagrees
      | ok semantics =>
        rw [hvalid] at hmay
        obtain ⟨kind, category⟩ := semantics
        cases kind with
        | application =>
          refine .never fun h => ?_
          obtain ⟨-, _, heq⟩ := hmay.mp h
          cases heq
        | framework =>
          refine .headers (by simp [hmay]) ?_
          rw [hread]
          rintro _ ⟨⟩
          exact hdisagrees

/-- **Where the hint of a decoded error comes from.** -/
theorem hintSource_decodeError :
    HintSource crates now method response (decodeError crates now method response).retryHint := by
  unfold decodeError
  by_cases hhead : method = .head ∧ response.body = []
  · rw [if_pos hhead]
    refine .headers ?_ ?_
    · unfold MayRetry
      rw [if_pos hhead, and_true]
    · unfold readProblem
      rw [if_pos hhead]
      nofun
  · rw [if_neg hhead]
    exact hintSource_decodeProblem hhead

/-- **When a `Retry-After` is honoured.**  A response that asks for a delay and is decoded
to an error that may be retried must say the delay in 64 bits of seconds, and its problem
must not name another status outside the reserved types. -/
theorem honoursRetryAfter_iff (hdates : crates.DatesNameDays) :
    HonoursRetryAfter crates now method response ↔
      ((askedDelay crates now response.headers).isSome → MayRetry crates now method response →
        ReadsRetryAfter crates method response) := by
  cases hasked : askedDelay crates now response.headers with
  | none => exact iff_of_true (fun _ h => by rw [hasked] at h; cases h) nofun
  | some delay =>
    have hhonours : HonoursRetryAfter crates now method response ↔
        ((decodeError crates now method response).retryHint.isRetryable = true →
          (decodeError crates now method response).retryHint = .after delay) := by
      constructor
      · intro h hretryable
        exact (h delay hasked hretryable).1
      · intro h delay' hdelay' e hretryable
        rw [hasked] at hdelay'
        obtain rfl := Option.some.inj hdelay'
        have hafter := h hretryable
        refine ⟨hafter, fun client world attempt => ?_⟩
        show delay ≤ retryDelay client world attempt
          (decodeError crates now method response).retryHint.retryAfter
        rw [hafter]
        exact Nat.le_max_right _ _
    rw [hhonours, Option.isSome_some, imp_iff_right rfl]
    have hparse := parseRetryAfter_of_askedDelay hdates hasked
    have hsource : HintSource crates now method response _ := hintSource_decodeError
    generalize (decodeError crates now method response).retryHint = hint at hsource ⊢
    cases hsource with
    | never hmay => exact iff_of_true nofun fun h => absurd h hmay
    | headers hmay hagree =>
      rw [normalizedRetryHint_framework, hmay]
      refine imp_congr_right fun htransient => ?_
      rw [hint_of_transient htransient]
      rcases hparse with ⟨hparse, hfit⟩ | ⟨hparse, hfit⟩
      · rw [hparse]
        exact iff_of_true rfl ⟨hfit, hagree⟩
      · rw [hparse]
        exact iff_of_false nofun fun h => hfit h.1
    | noHeaders hmay hread hdisagrees =>
      rw [normalizedRetryHint_framework, hmay]
      refine imp_congr_right fun htransient => ?_
      rw [hint_of_transient htransient]
      exact iff_of_false nofun fun h => h.2 _ hread hdisagrees

end

/-! ## Responses of an unavailable service -/

/-- A service that is not available answers with a problem of no declared type. -/
def unavailableResponse (named : Nat) (later : HeaderValue) : BufferedResponse where
  status := .serviceUnavailable
  headers := ⟨[(retryAfter, later)]⟩
  body := problemBody "about:blank" named "busy"
  requestId := "request-1".toList
  invocationControls := false

def twoMinutes : HeaderValue := ⟨utf8 "120".toList, by decide⟩

theorem jsonCrates_datesNameDays : jsonCrates.DatesNameDays := nofun

theorem fromSlice_unavailableResponse (named : Nat) (later : HeaderValue) :
    ProblemDetails.fromSlice jsonCrates (unavailableResponse named later).body =
      ProblemDetails.ofJson jsonCrates (problemDocument "about:blank" named "busy") :=
  fromSlice_problemBody _ _ _

theorem honoursRetryAfter_unavailable :
    HonoursRetryAfter jsonCrates 0 .get (unavailableResponse 503 twoMinutes) := by
  refine (honoursRetryAfter_iff jsonCrates_datesNameDays).mpr fun _ _ => ⟨?_, ?_⟩
  · decide
  · unfold readProblem
    rw [if_neg (by simp), fromSlice_unavailableResponse]
    decide +kernel

def moreThanU64 : HeaderValue := ⟨utf8 "18446744073709551616".toList, by decide⟩

/-- The delay is lost where the problem says 500, and where the seconds have 20 digits. -/
theorem retryAfter_lost :
    ¬ HonoursRetryAfter jsonCrates 0 .get (unavailableResponse 500 twoMinutes) ∧
      ¬ HonoursRetryAfter jsonCrates 0 .get (unavailableResponse 503 moreThanU64) := by
  constructor
  · intro h
    have hasked : askedDelay jsonCrates 0 (unavailableResponse 500 twoMinutes).headers =
        some (120 * 10 ^ 9) := by decide
    have hhint : (decodeError jsonCrates 0 .get (unavailableResponse 500 twoMinutes)).retryHint =
        .retryable := by
      unfold decodeError decodeProblem
      rw [if_neg (by simp), fromSlice_unavailableResponse]
      decide +kernel
    have hafter := (h _ hasked (by rw [hhint]; rfl)).1
    rw [hhint] at hafter
    cases hafter
  · intro h
    have hasked : askedDelay jsonCrates 0 (unavailableResponse 503 moreThanU64).headers =
        some (2 ^ 64 * 10 ^ 9) := by decide
    have hhint : (decodeError jsonCrates 0 .get (unavailableResponse 503 moreThanU64)).retryHint =
        .retryable := by
      unfold decodeError decodeProblem
      rw [if_neg (by simp), fromSlice_unavailableResponse]
      decide +kernel
    have hafter := (h _ hasked (by rw [hhint]; rfl)).1
    rw [hhint] at hafter
    cases hafter

end Fusen.Wire
