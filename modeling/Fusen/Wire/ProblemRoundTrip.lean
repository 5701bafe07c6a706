import Fusen.Wire.ProblemTypes

/-!
# Errors across the wire

What the response of an error is decoded as (`decodeProblem_encoded`).  Two results rest
on it: `roundTrips_iff`, an error comes back as itself unless it has details that cannot
be read, and `hintKept_iff`, which errors keep their retry hint.
-/

namespace Fusen.Wire

open Lib Resilience

/-! ## What is sent -/

/-- The status an error is sent with. -/
def sentStatus (e : Error) : StatusCode :=
  if e.kind = .application then e.status else e.category.canonicalStatus.getD .internalServerError

/-- The category an error is sent with; `unknown` has no name and is sent as `internal`. -/
def sentCategory (e : Error) : ErrorCategory :=
  if e.kind = .application then categoryFromStatus e.status
  else if e.category = .unknown then .internal
  else e.category

def sentName (e : Error) : Text :=
  if e.kind = .application then "application".toList
  else (frameworkCategoryName e.category).getD "internal".toList

theorem problemCategory_eq (e : Error) : problemCategory e = (e.kind, sentName e, sentStatus e) := by
  unfold problemCategory sentName sentStatus
  by_cases h : e.kind = .application
  · rw [if_pos h, if_pos h, if_pos h, h]
  · rw [if_neg h, if_neg h, if_neg h]
    have hkind : e.kind = .framework := by
      cases hk : e.kind with
      | application => exact absurd hk h
      | framework => rfl
    rw [hkind]
    cases e.category <;> rfl

section

variable (crates : Crates) (e : Error) (id : Text) (instance_ : Option Text) (controls : Bool)

/-- The problem of an error before it is bounded. -/
def fullProblem : ProblemDetails :=
  let problem := (problemFromError crates e id instance_).1
  if controls then problem else { problem with requestId := none }

/-- The full problem exceeds the limit. -/
def Oversized : Prop := EMERGENCY_PROBLEM_LIMIT < (fullProblem crates e id instance_ controls).bytes.length

instance : Decidable (Oversized crates e id instance_ controls) :=
  inferInstanceAs (Decidable (_ < _))

def sentProblem : ProblemDetails :=
  if Oversized crates e id instance_ controls then
    (fullProblem crates e id instance_ controls).withoutOptionalFields
  else fullProblem crates e id instance_ controls

end

section

variable {crates : Crates} {e : Error} {id : Text} {instance_ : Option Text} {controls : Bool}

theorem fullProblem_eq : fullProblem crates e id instance_ controls =
    { typeUri := reservedType (sentName e) e.code.text
      title := (crates.canonicalReason (sentStatus e)).getD "Service Invocation Error".toList
      status := (sentStatus e).code
      detail := some (if e.kind = .framework ∧ sentName e = "internal".toList then
        "Internal server error".toList else e.message)
      instance_
      code := some e.code
      requestId := if controls then some id else none
      retryable := e.kind = .framework && e.retryHint.isRetryable
      details := if e.kind = .application ∧ e.origin = .local_ then e.details else none } := by
  unfold fullProblem problemFromError
  simp only [problemCategory_eq]
  cases controls <;> rfl

theorem sentProblem_typeUri : (sentProblem crates e id instance_ controls).typeUri =
    reservedType (sentName e) e.code.text := by
  unfold sentProblem
  rw [fullProblem_eq]
  split <;> rfl

theorem sentProblem_status : (sentProblem crates e id instance_ controls).status =
    (sentStatus e).code := by
  unfold sentProblem
  rw [fullProblem_eq]
  split <;> rfl

theorem sentProblem_code : (sentProblem crates e id instance_ controls).code = some e.code := by
  unfold sentProblem
  rw [fullProblem_eq]
  split <;> rfl

theorem sentProblem_requestId : (sentProblem crates e id instance_ controls).requestId =
    if controls then some id else none := by
  unfold sentProblem
  rw [fullProblem_eq]
  split <;> rfl

theorem sentName_mem (e : Error) : sentName e ∈ ["application", "invalid-argument", "not-found",
    "conflict", "unauthenticated", "permission-denied", "payload-too-large", "resource-exhausted",
    "unavailable", "deadline-exceeded", "cancelled", "unimplemented", "internal",
    "data-loss"].map String.toList := by
  unfold sentName
  split
  · decide
  · cases e.category <;> decide

theorem sentName_plain (e : Error) : (sentName e).length ≤ 18 ∧
    (sentName e).all isPlainChar = true ∧ ':' ∉ sentName e ∧ sentName e ≠ [] := by
  have hall : ∀ name ∈ ["application", "invalid-argument", "not-found", "conflict",
      "unauthenticated", "permission-denied", "payload-too-large", "resource-exhausted",
      "unavailable", "deadline-exceeded", "cancelled", "unimplemented", "internal",
      "data-loss"].map String.toList,
      name.length ≤ 18 ∧ name.all isPlainChar = true ∧ ':' ∉ name ∧ name ≠ [] := by decide
  exact hall _ (sentName_mem e)

variable (crates id instance_ controls) in
theorem valid_sentProblem (he : e.Sound) : (sentProblem crates e id instance_ controls).Valid where
  status_lt := by
    rw [sentProblem_status]
    have := (sentStatus e).valid.2
    omega
  numbers := by
    intro d hd
    unfold sentProblem at hd
    split at hd
    · cases hd
    · rw [fullProblem_eq] at hd
      exact he.numbers d (Option.ite_none_right_eq_some.mp hd).2

variable (e instance_ controls) in
/-- **The body is never too large.** -/
theorem boundedProblem_fullProblem (hcrates : crates.Documented)
    (hid : requestIdIsValid id = true) :
    boundedProblem (fullProblem crates e id instance_ controls) =
        some (sentProblem crates e id instance_ controls).bytes ∧
      (sentProblem crates e id instance_ controls).bytes.length ≤ EMERGENCY_PROBLEM_LIMIT := by
  obtain ⟨hname, hplain, -, -⟩ := sentName_plain e
  obtain ⟨hcode, hcodePlain⟩ := errorCode_plain e.code
  have hminimal := ProblemDetails.length_minimal
    (p := fullProblem crates e id instance_ controls)
    (by
      rw [fullProblem_eq]
      have : problemPrefix.length = 16 := rfl
      simp only [reservedType, List.length_append, List.length_cons]
      omega)
    (by
      rw [fullProblem_eq]
      have hprefix : problemPrefix.all isPlainChar = true := by decide
      have hcolon : isPlainChar ':' = true := by decide
      simp only [reservedType, List.all_append, List.all_cons, hprefix, hplain, hcolon, hcodePlain,
        Bool.and_self])
    (by
      rw [fullProblem_eq]
      show ((crates.canonicalReason (sentStatus e)).getD _).length ≤ 64
      cases hreason : crates.canonicalReason (sentStatus e) with
      | none => decide
      | some reason => exact (hcrates.reason _ _ hreason).1)
    (by
      rw [fullProblem_eq]
      show ((crates.canonicalReason (sentStatus e)).getD _).all isPlainChar = true
      cases hreason : crates.canonicalReason (sentStatus e) with
      | none => decide
      | some reason => exact (hcrates.reason _ _ hreason).2)
    (by
      rw [fullProblem_eq]
      have := (sentStatus e).valid.2
      show (sentStatus e).code < 1000
      omega)
    (by
      rw [fullProblem_eq]
      intro found hfound
      cases controls
      · cases hfound
      · cases hfound
        exact requestId_plain hid)
  unfold boundedProblem sentProblem
  by_cases h : Oversized crates e id instance_ controls
  · have hnot : ¬ (fullProblem crates e id instance_ controls).bytes.length ≤
        EMERGENCY_PROBLEM_LIMIT := Nat.not_le.mpr h
    simp only [if_neg hnot, if_pos h, if_pos hminimal, true_and]
    exact hminimal
  · have hle : (fullProblem crates e id instance_ controls).bytes.length ≤
        EMERGENCY_PROBLEM_LIMIT := Nat.not_lt.mp h
    simp only [if_pos hle, if_neg h, true_and]
    exact hle

end

/-! ## Headers -/

/-- The headers of a response, with the one of a retry delay. -/
structure SentHeaders (e : Error) (headers : HeaderMap) : Prop where
  delay : ∀ delay, localRetryDelay e = some delay →
    ∃ v : HeaderValue, headers.getAll retryAfter = [v] ∧
      v.toStr = some (decimal (retryAfterSeconds delay))

theorem problemHeaders_sent (e : Error) :
    ∃ headers, problemHeaders e = some headers ∧ SentHeaders e headers := by
  unfold problemHeaders
  cases hdelay : localRetryDelay e with
  | none =>
    refine ⟨_, rfl, ⟨fun delay h => ?_⟩⟩
    rw [hdelay] at h
    cases h
  | some delay =>
    obtain ⟨v, hv, hstr⟩ := fromStr_plain (decimal_plain (retryAfterSeconds delay))
    simp only [hv, Option.map_some]
    refine ⟨_, rfl, ⟨fun found h => ?_⟩⟩
    rw [hdelay] at h
    cases h
    exact ⟨v, by rw [HeaderMap.getAll_insert, if_pos rfl], hstr⟩

theorem SentHeaders.insert {e : Error} {headers : HeaderMap} (h : SentHeaders e headers)
    {name : HeaderName} (hname : name ≠ retryAfter) (value : HeaderValue) :
    SentHeaders e (headers.insert name value) := by
  refine ⟨fun delay hdelay => ?_⟩
  obtain ⟨v, hv, hstr⟩ := h.delay delay hdelay
  exact ⟨v, by rw [HeaderMap.getAll_insert, if_neg hname, hv], hstr⟩

section

variable {crates : Crates} {now : Nat} {e : Error} {id : Text} {instance_ : Option Text}
  {controls : Bool} {headers : HeaderMap}

variable (e instance_ controls) in
/-- **Encoding an error never panics.** -/
theorem encodeProblem_sent (hcrates : crates.Documented) (hid : requestIdIsValid id = true) :
    ∃ headers, encodeProblem crates e id instance_ controls =
        some ⟨sentStatus e, headers, ⟨(sentProblem crates e id instance_ controls).bytes, none⟩⟩ ∧
      SentHeaders e headers := by
  obtain ⟨headers, hheaders, hsent⟩ := problemHeaders_sent e
  obtain ⟨v, hv, -⟩ := fromStr_plain (requestId_plain hid).2
  have hcontent : SentHeaders e (headers.insert contentType problemContentType) :=
    hsent.insert (by decide) problemContentType
  have hbody := (boundedProblem_fullProblem e instance_ controls hcrates hid).1
  have hstatus : (problemFromError crates e id instance_).2 = sentStatus e := by
    unfold problemFromError
    rw [problemCategory_eq]
  unfold fullProblem at hbody
  have hencode : encodeProblem crates e id instance_ controls =
      (insertRequestId (headers.insert contentType problemContentType) id controls).map fun headers =>
        ⟨sentStatus e, headers, ⟨(sentProblem crates e id instance_ controls).bytes, none⟩⟩ := by
    unfold encodeProblem
    simp only [hbody, hheaders, hstatus, Option.bind_some, Option.bind_eq_bind]
    cases insertRequestId (headers.insert contentType problemContentType) id controls <;> rfl
  rw [hencode]
  cases controls with
  | true =>
    have hinsert : insertRequestId (headers.insert contentType problemContentType) id true =
        some ((headers.insert contentType problemContentType).insert requestId v) := by
      unfold insertRequestId
      rw [if_pos rfl, hv]
      rfl
    rw [hinsert]
    exact ⟨_, rfl, hcontent.insert (by decide) v⟩
  | false => exact ⟨_, rfl, hcontent⟩

/-! ## What is received -/

theorem sentStatus_isError (he : e.Sound) :
    (sentStatus e).isClientError = true ∨ (sentStatus e).isServerError = true := by
  unfold sentStatus
  by_cases h : e.kind = .application
  · rw [if_pos h]
    exact he.status h
  · rw [if_neg h]
    cases hstatus : e.category.canonicalStatus with
    | none => exact Or.inr rfl
    | some status => exact Error.canonicalStatus_isError hstatus

theorem kind_eq_framework {e : Error} (h : e.kind ≠ .application) : e.kind = .framework := by
  cases hk : e.kind with
  | application => exact absurd hk h
  | framework => rfl

theorem sent_framework (h : e.kind ≠ .application) :
    frameworkCategoryFromName (sentName e) = some (sentCategory e) ∧
      (sentCategory e).canonicalStatus = some (sentStatus e) ∧
      sentName e ≠ "application".toList := by
  unfold sentName sentCategory sentStatus
  rw [if_neg h, if_neg h, if_neg h]
  cases e.category <;> decide

/-- What the decoder reads off a problem does not depend on its details. -/
structure SentAs (e : Error) (id : Text) (controls : Bool) (problem : ProblemDetails) : Prop where
  typeUri : problem.typeUri = reservedType (sentName e) e.code.text
  status : problem.status = (sentStatus e).code
  code : problem.code = some e.code
  requestId : problem.requestId = if controls then some id else none

theorem isErrorCode_chars {s : Text} {previous : Option Char} (h : isSnakeCase previous s = true) :
    ':' ∉ s := by
  induction s generalizing previous with
  | nil => exact List.not_mem_nil
  | cons c s ih =>
    unfold isSnakeCase at h
    rw [Bool.and_eq_true] at h
    rw [List.mem_cons, not_or]
    refine ⟨?_, ih h.2⟩
    rintro rfl
    exact absurd h.1 (by simp)

theorem errorCode_colon (code : ErrorCode) : ':' ∉ code.text ∧ code.text ≠ [] := by
  have h := code.valid
  simp only [isErrorCode, Bool.and_eq_true, decide_eq_true_eq] at h
  refine ⟨isErrorCode_chars h.2, ?_⟩
  intro hnil
  rw [hnil] at h
  exact absurd h.1.1.2 (by decide)

theorem parseReservedType_sent {problem : ProblemDetails} (h : SentAs e id controls problem) :
    parseReservedType (sentName e ++ ':' :: e.code.text) problem (sentStatus e) id =
      .ok ⟨e.kind, sentCategory e⟩ := by
  obtain ⟨-, -, hcolon, hne⟩ := sentName_plain e
  obtain ⟨hcode, hcodeNe⟩ := errorCode_colon e.code
  unfold parseReservedType
  rw [splitOnce_append hcolon]
  have hchecks : ¬ ((sentName e).isEmpty = true ∨ e.code.text.isEmpty = true ∨
      e.code.text.contains ':' = true ∨ problem.code.map ErrorCode.text ≠ some e.code.text) := by
    rw [h.code]
    simp [hne, hcodeNe, hcode]
  show (if _ then _ else _ : Except Error ProblemSemantics) = _
  rw [if_neg hchecks]
  by_cases hkind : e.kind = .application
  · have hname : sentName e = "application".toList := if_pos hkind
    have hcategory : sentCategory e = categoryFromStatus e.status := if_pos hkind
    have hstatus : sentStatus e = e.status := if_pos hkind
    rw [if_pos hname, hkind, hcategory, hstatus]
  · obtain ⟨hfrom, -, hname⟩ := sent_framework hkind
    rw [if_neg hname, hfrom, kind_eq_framework hkind]

theorem validateProblem_sent (he : e.Sound) (hid : requestIdIsValid id = true)
    {problem : ProblemDetails} (h : SentAs e id controls problem) :
    validateProblem crates now (sentStatus e) id problem controls =
      .ok ⟨e.kind, sentCategory e⟩ := by
  have hstatus : ¬ ((sentStatus e).isClientError = false ∧ (sentStatus e).isServerError = false) := by
    rw [not_and_or, Bool.not_eq_false, Bool.not_eq_false]
    exact sentStatus_isError he
  have hrequest : ¬ (controls = true ∧
      ¬ problem.requestId.any (fun found => requestIdIsValid found && found = id) = true) := by
    rintro ⟨rfl, hany⟩
    rw [h.requestId] at hany
    simp [hid] at hany
  have htype : parseProblemType crates problem (sentStatus e) id = .ok ⟨e.kind, sentCategory e⟩ := by
    have huri : problem.typeUri = problemPrefix ++ (sentName e ++ ':' :: e.code.text) := by
      rw [h.typeUri, reservedType, List.append_assoc]
    unfold parseProblemType
    rw [huri, isCaseVariant_problemPrefix, if_neg Bool.false_ne_true,
      stripPrefix_eq_some_iff.mpr rfl]
    exact parseReservedType_sent h
  have hcanonical : ¬ (e.kind = .framework ∧ isReserved problem.typeUri = true ∧
      (sentCategory e).canonicalStatus ≠ some (sentStatus e)) := by
    rintro ⟨hkind, -, hne⟩
    exact hne (sent_framework (by rw [hkind]; decide)).2.1
  unfold validateProblem
  rw [if_neg hstatus, if_neg (not_not.mpr h.status), if_neg hrequest, htype]
  show (if _ then _ else _ : Except Error ProblemSemantics) = _
  rw [if_neg hcanonical]

/-- The details of an error that are sent, and cannot be read back. -/
def Unreadable (crates : Crates) (e : Error) (id : Text) (instance_ : Option Text)
    (controls : Bool) : Prop :=
  e.kind = .application ∧ e.origin = .local_ ∧ ¬ Oversized crates e id instance_ controls ∧
    ∃ d, e.details = some d ∧ crates.toMap (.object d.fields) = none

/-- What is received for an error. -/
structure Received (crates : Crates) (now : Nat) (e : Error) (headers : HeaderMap)
    (detail : Option Text) (received : Error) : Prop where
  kind : received.kind = e.kind
  category : received.category = sentCategory e
  code : received.code = e.code
  message : received.message = detail.getD "remote service returned an error".toList
  status : received.status = sentStatus e
  origin : received.origin = .remote
  hint : received.retryHint = normalizedRetryHint crates now e.kind (sentStatus e) headers

theorem decodeProblem_sentAs (he : e.Sound) (hid : requestIdIsValid id = true) {body : List UInt8}
    {problem : ProblemDetails} (hread : ProblemDetails.fromSlice crates body = some problem)
    (h : SentAs e id controls problem) :
    Received crates now e headers problem.detail
      (decodeProblem crates now (sentStatus e) id body headers controls) := by
  unfold decodeProblem
  rw [hread]
  simp only [validateProblem_sent he hid h]
  refine ⟨rfl, rfl, ?_, rfl, rfl, rfl, ?_⟩
  · show problem.code.getD _ = _
    rw [h.code]
    rfl
  · show (if e.kind = .application then RetryHint.never else _) = _
    split
    · rename_i hkind
      unfold normalizedRetryHint
      rw [if_pos (Or.inl hkind)]
    · rfl

theorem sentAs_sentProblem (d : Option ErrorDetails) :
    SentAs e id controls { sentProblem crates e id instance_ controls with details := d } where
  typeUri := @sentProblem_typeUri crates e id instance_ controls
  status := @sentProblem_status crates e id instance_ controls
  code := @sentProblem_code crates e id instance_ controls
  requestId := @sentProblem_requestId crates e id instance_ controls

theorem readDetails_sentProblem :
    ProblemDetails.readDetails crates (sentProblem crates e id instance_ controls) = none ↔
      Unreadable crates e id instance_ controls := by
  unfold ProblemDetails.readDetails Unreadable sentProblem
  by_cases hsize : Oversized crates e id instance_ controls
  · rw [if_pos hsize]
    simp [ProblemDetails.withoutOptionalFields, hsize]
  · rw [if_neg hsize, fullProblem_eq]
    by_cases hsent : e.kind = .application ∧ e.origin = .local_
    · simp only [hsent.1, hsent.2, hsize, not_false_eq_true, true_and]
      cases e.details <;> simp
    · simp only [if_neg hsent, reduceCtorEq, false_iff]
      rintro ⟨hkind, horigin, -⟩
      exact hsent ⟨hkind, horigin⟩

variable (now instance_ controls headers) in
/-- **What the response of an error is decoded as.** -/
theorem decodeProblem_encoded (hcrates : crates.Documented) (he : e.Sound)
    (hid : requestIdIsValid id = true) :
    let body := (sentProblem crates e id instance_ controls).bytes
    (Unreadable crates e id instance_ controls ∧
      decodeProblem crates now (sentStatus e) id body headers controls =
        statusError crates now (sentStatus e) id headers) ∨
    (¬ Unreadable crates e id instance_ controls ∧
      Received crates now e headers (sentProblem crates e id instance_ controls).detail
        (decodeProblem crates now (sentStatus e) id body headers controls)) := by
  have hread := ProblemDetails.fromSlice_bytes hcrates
    (valid_sentProblem crates id instance_ controls he)
  rw [← readDetails_sentProblem]
  cases hdetails : ProblemDetails.readDetails crates (sentProblem crates e id instance_ controls) with
  | none =>
    rw [hdetails] at hread
    refine Or.inl ⟨rfl, ?_⟩
    unfold decodeProblem
    rw [hread]
    rfl
  | some d =>
    rw [hdetails] at hread
    have hsome : ProblemDetails.fromSlice crates (sentProblem crates e id instance_ controls).bytes =
        some { sentProblem crates e id instance_ controls with details := d } := hread
    have hreceived := @decodeProblem_sentAs crates now e id controls headers he hid _ _ hsome
      (sentAs_sentProblem d)
    exact Or.inr ⟨nofun, hreceived⟩

end

/-! ## Round trips -/

/-- **The round trip of an error**: it is encoded within the limit, and decoded as an
error of the same kind, code, status and category, with the same message unless it is
internal or too long. -/
def RoundTrips (crates : Crates) (now : Nat) (e : Error) (id : Text) (instance_ : Option Text)
    (controls : Bool) : Prop :=
  ∃ r, encodeProblem crates e id instance_ controls = some r ∧
    r.body.bytes.length ≤ EMERGENCY_PROBLEM_LIMIT ∧
    let received := decodeProblem crates now r.status id r.body.bytes r.headers controls
    received.kind = e.kind ∧ received.code = e.code ∧ received.status = e.status ∧
      received.category = e.category ∧
      (¬ (e.kind = .framework ∧ e.category = .internal) →
        ¬ Oversized crates e id instance_ controls → received.message = e.message) ∧
      ∀ e', ProtocolError id e' → received ≠ e'.withHeaders r.headers

/-- The error that the decoder puts in the place of a body it cannot read. -/
def IsStatusError (crates : Crates) (e : Error) : Prop :=
  e.status.isClientError = true ∧ e.code = remoteHttpError ∧
    e.message = (crates.canonicalReason e.status).getD "remote HTTP request failed".toList

theorem sentStatus_canonical {e : Error} (he : e.Canonical) : sentStatus e = e.status := by
  unfold sentStatus
  by_cases h : e.kind = .application
  · rw [if_pos h]
  · rw [if_neg h, he.framework (kind_eq_framework h)]
    rfl

theorem sentCategory_canonical {e : Error} (he : e.Canonical) : sentCategory e = e.category := by
  unfold sentCategory
  by_cases h : e.kind = .application
  · rw [if_pos h, he.application h]
  · rw [if_neg h, if_neg]
    intro hunknown
    have hstatus := he.framework (kind_eq_framework h)
    rw [hunknown] at hstatus
    cases hstatus

theorem sentProblem_detail {crates : Crates} {e : Error} {id : Text} {instance_ : Option Text}
    {controls : Bool} (hsize : ¬ Oversized crates e id instance_ controls)
    (hinternal : ¬ (e.kind = .framework ∧ e.category = .internal)) (he : e.Canonical) :
    (sentProblem crates e id instance_ controls).detail = some e.message := by
  unfold sentProblem
  rw [if_neg hsize, fullProblem_eq]
  show some (if _ then _ else _) = _
  rw [if_neg]
  rintro ⟨hkind, hname⟩
  refine hinternal ⟨hkind, ?_⟩
  have hne : e.kind ≠ .application := by rw [hkind]; decide
  have hfrom := (sent_framework hne).1
  rw [hname, sentCategory_canonical he] at hfrom
  exact (Option.some.inj hfrom).symm

/-- No received error is a protocol error of the decoder, whose hint is `never`. -/
theorem not_protocolError_of_received {crates : Crates} {now : Nat} {e received : Error}
    {headers : HeaderMap} {detail : Option Text} {id : Text}
    (h : Received crates now e headers detail received) {e' : Error} (he' : ProtocolError id e') :
    received ≠ e'.withHeaders headers := by
  rintro rfl
  have hfields : e'.kind = .framework ∧ e'.status = .badGateway ∧ e'.retryHint = .never := by
    cases he' <;> exact ⟨rfl, rfl, rfl⟩
  obtain ⟨hkind, hstatus, hhint⟩ := hfields
  have hkind' : e.kind = .framework := h.kind.symm.trans hkind
  have hstatus' : sentStatus e = .badGateway := h.status.symm.trans hstatus
  have hnever : normalizedRetryHint crates now e.kind (sentStatus e) headers = .never :=
    h.hint.symm.trans hhint
  rw [hkind', hstatus'] at hnever
  unfold normalizedRetryHint at hnever
  rw [if_neg (by decide)] at hnever
  split at hnever <;> cases hnever

section

variable {crates : Crates} {now : Nat} {e : Error} {id : Text} {instance_ : Option Text}
  {controls : Bool}

theorem roundTrips_of_readable (hcrates : crates.Documented) (he : e.Built)
    (hid : requestIdIsValid id = true)
    (h : Unreadable crates e id instance_ controls → IsStatusError crates e) :
    RoundTrips crates now e id instance_ controls := by
  obtain ⟨hsound, hcanonical⟩ := Error.sound_of_built he
  obtain ⟨headers, hencode, -⟩ := encodeProblem_sent e instance_ controls hcrates hid
  have hsize := (boundedProblem_fullProblem e instance_ controls hcrates hid).2
  refine ⟨_, hencode, hsize, ?_⟩
  rcases decodeProblem_encoded now instance_ controls headers hcrates hsound hid with ⟨hunreadable, heq⟩ | ⟨-, hreceived⟩
  · obtain ⟨hclient, hcode, hmessage⟩ := h hunreadable
    have hstatus := sentStatus_canonical hcanonical
    rw [hstatus] at heq
    simp only [hstatus, heq]
    refine ⟨?_, hcode.symm, rfl, (hcanonical.application hunreadable.1).symm,
      fun _ _ => hmessage.symm, ?_⟩
    · show (if _ then _ else _ : ErrorKind) = _
      rw [if_pos hclient, hunreadable.1]
    · intro e' he' hsame
      exact code_of_protocolError he' (congrArg Error.code hsame).symm
  · refine ⟨hreceived.kind, hreceived.code, ?_, ?_, fun hinternal hfits => ?_,
      fun e' he' => not_protocolError_of_received hreceived he'⟩
    · rw [hreceived.status, sentStatus_canonical hcanonical]
    · rw [hreceived.category, sentCategory_canonical hcanonical]
    · rw [hreceived.message, sentProblem_detail hfits hinternal hcanonical]
      rfl

theorem isStatusError_of_roundTrips (hcrates : crates.Documented) (he : e.Built)
    (hid : requestIdIsValid id = true) (h : RoundTrips crates now e id instance_ controls)
    (hunreadable : Unreadable crates e id instance_ controls) : IsStatusError crates e := by
  obtain ⟨hsound, hcanonical⟩ := Error.sound_of_built he
  obtain ⟨headers, hencode, -⟩ := encodeProblem_sent e instance_ controls hcrates hid
  obtain ⟨r, hr, -, hkind, hcode, -, -, hmessage, -⟩ := h
  rw [hencode] at hr
  cases hr
  rcases decodeProblem_encoded now instance_ controls headers hcrates hsound hid with ⟨-, heq⟩ | ⟨hreadable, -⟩
  · have hstatus := sentStatus_canonical hcanonical
    rw [hstatus] at heq
    simp only [hstatus, heq] at hkind hcode hmessage
    refine ⟨?_, hcode.symm, (hmessage ?_ hunreadable.2.2.1).symm⟩
    · by_contra hclient
      have hframework : (if e.status.isClientError = true then ErrorKind.application
          else .framework) = e.kind := hkind
      rw [if_neg hclient, hunreadable.1] at hframework
      cases hframework
    · rintro ⟨hframework, -⟩
      rw [hunreadable.1] at hframework
      cases hframework
  · exact absurd hunreadable hreadable

/-- **An error comes back as itself exactly when its details can be read**, or it is what
the decoder makes of an unreadable body. -/
theorem roundTrips_iff (hcrates : crates.Documented) (he : e.Built)
    (hid : requestIdIsValid id = true) :
    RoundTrips crates now e id instance_ controls ↔
      (Unreadable crates e id instance_ controls → IsStatusError crates e) :=
  ⟨fun h hunreadable => isStatusError_of_roundTrips hcrates he hid h hunreadable,
    roundTrips_of_readable hcrates he hid⟩

end

/-! ### An error with deep details -/

/-- `n` arrays around nothing. -/
def nested : Nat → Json
  | 0 => .null
  | n + 1 => .array [nested n]

theorem nested_numbers (n : Nat) : (nested n).Numbers := by
  induction n with
  | zero => trivial
  | succ n ih => exact ⟨ih, trivial⟩

theorem nested_distinctKeys (n : Nat) : (nested n).DistinctKeys := by
  induction n with
  | zero => trivial
  | succ n ih => exact ⟨ih, trivial⟩

theorem nested_depth (n : Nat) : (nested n).depth = n := by
  induction n with
  | zero => rfl
  | succ n ih =>
    show max (nested n).depth 0 + 1 = n + 1
    rw [ih, Nat.max_zero]

def nestedDetails (n : Nat) : ErrorDetails where
  fields := [("at".toList, nested n)]
  distinct := ⟨List.nodup_singleton _, nested_distinctKeys n, trivial⟩

/-- An application error with status 503 and details nested `n` deep. -/
def busy (n : Nat) : Error :=
  (Error.fresh .application .unavailable ⟨"busy".toList, by decide⟩ [] .serviceUnavailable).withDetails
    (nestedDetails n)

theorem busy_built (n : Nat) : (busy n).Built := by
  have hfresh : Error.applicationStatus .serviceUnavailable "busy".toList [] =
    .ok (.fresh .application .unavailable ⟨"busy".toList, by decide⟩ [] .serviceUnavailable) := rfl
  exact .withDetails (.applicationStatus hfresh) (nestedDetails n) ⟨nested_numbers n, trivial⟩

theorem toMap_nestedDetails (n : Nat) :
    toMap (.object (nestedDetails n).fields) = if n ≤ 125 then some (nestedDetails n) else none := by
  rw [toMap_object]
  have hdepth : (Json.object (nestedDetails n).fields).depth = n + 1 := by
    show max (nested n).depth 0 + 1 = n + 1
    rw [nested_depth, Nat.max_zero]
  rw [hdepth]
  by_cases h : n ≤ 125
  · rw [if_pos h, if_pos (by omega)]
  · rw [if_neg h, if_neg (by omega)]

theorem busy_roundTrips : RoundTrips jsonCrates 0 (busy 3) "request-1".toList none true := by
  refine (roundTrips_iff jsonCrates_documented (busy_built 3) (by decide)).mpr ?_
  rintro ⟨-, -, -, d, hd, hmap⟩
  obtain rfl : nestedDetails 3 = d := Option.some.inj hd
  have hmap : toMap (.object (nestedDetails 3).fields) = none := hmap
  rw [toMap_nestedDetails] at hmap
  cases hmap

theorem busy_fits : ¬ Oversized jsonCrates (busy 126) "request-1".toList none true := by
  decide +kernel

theorem busy_unreadable {n : Nat} (hn : 125 < n)
    (hfits : ¬ Oversized jsonCrates (busy n) "request-1".toList none true) :
    Unreadable jsonCrates (busy n) "request-1".toList none true := by
  refine ⟨rfl, rfl, hfits, nestedDetails n, rfl, ?_⟩
  have hmap := toMap_nestedDetails n
  rw [if_neg (Nat.not_le.mpr hn)] at hmap
  exact hmap

/-- An application error that is received as a framework error. -/
theorem busy_lost : ¬ RoundTrips jsonCrates 0 (busy 126) "request-1".toList none true := by
  intro h
  have := isStatusError_of_roundTrips jsonCrates_documented (busy_built 126) (by decide) h
    (busy_unreadable (by decide) busy_fits)
  exact absurd this.1 (by decide)

end Fusen.Wire
