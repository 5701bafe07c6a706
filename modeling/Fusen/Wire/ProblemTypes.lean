import Fusen.Resilience.Classify
import Fusen.Wire.ProblemDocuments

/-!
# Problem types a remote peer can use

A body whose type has the reserved prefix, in any letter case, has to pass every check
of the decoder or becomes one of its protocol errors.  The decoder misses two kinds of
such bodies (`typesGuarded_iff`): those that are no problem document otherwise, and
those that vary the case and have another status than the response.
-/

namespace Fusen.Wire

open Lib Resilience

/-! ## Inversion of the validation -/

theorem stripPrefix_eq_some_iff {start s value : Text} :
    stripPrefix start s = some value ↔ s = start ++ value := by
  unfold stripPrefix
  rw [Option.ite_none_right_eq_some, List.isPrefixOf_iff_prefix, Option.some.injEq]
  constructor
  · rintro ⟨⟨rest, rfl⟩, rfl⟩
    rw [List.drop_left]
  · rintro rfl
    exact ⟨⟨value, rfl⟩, List.drop_left⟩

theorem isReserved_iff {typeUri : Text} :
    isReserved typeUri = true ↔ ∃ value, typeUri = problemPrefix ++ value := by
  rw [isReserved, List.isPrefixOf_iff_prefix]
  exact ⟨fun ⟨value, h⟩ => ⟨value, h.symm⟩, fun ⟨value, h⟩ => ⟨value, h.symm⟩⟩

/-- The reserved prefix, in any letter case. -/
def ReservedType (typeUri : Text) : Prop :=
  (typeUri.take problemPrefix.length).map Char.toLower = problemPrefix

instance (typeUri : Text) : Decidable (ReservedType typeUri) :=
  inferInstanceAs (Decidable (_ = _))

theorem take_problemPrefix (value : Text) :
    (problemPrefix ++ value).take problemPrefix.length = problemPrefix := List.take_left

theorem reservedType_problemPrefix (value : Text) : ReservedType (problemPrefix ++ value) := by
  unfold ReservedType
  rw [take_problemPrefix]
  decide

theorem isCaseVariant_problemPrefix (value : Text) :
    isCaseVariant (problemPrefix ++ value) = false := by
  unfold isCaseVariant
  rw [take_problemPrefix]
  decide

theorem reservedType_iff {typeUri : Text} :
    ReservedType typeUri ↔ isReserved typeUri = true ∨ isCaseVariant typeUri = true := by
  constructor
  · intro h
    by_cases hstart : typeUri.take problemPrefix.length = problemPrefix
    · exact Or.inl (List.isPrefixOf_iff_prefix.mpr (hstart ▸ List.take_prefix _ _))
    · refine Or.inr ?_
      unfold ReservedType at h
      simp [isCaseVariant, h, hstart]
  · rintro (h | h)
    · obtain ⟨value, rfl⟩ := (isReserved_iff).mp h
      exact reservedType_problemPrefix value
    · unfold isCaseVariant at h
      rw [Bool.and_eq_true, decide_eq_true_eq] at h
      exact h.1

/-- A code that stands in the type, behind the category's name. -/
def reservedType (categoryName code : Text) : Text :=
  problemPrefix ++ categoryName ++ ':' :: code

theorem ite_some_cases {α : Type} {c : Prop} [Decidable c] {a x : α} {r : Option α}
    (h : (if c then some a else r) = some x) : c ∧ a = x ∨ r = some x := by
  by_cases hc : c
  · rw [if_pos hc] at h
    exact Or.inl ⟨hc, Option.some.inj h⟩
  · rw [if_neg hc] at h
    exact Or.inr h

theorem frameworkCategoryName_of_fromName {name : Text} {category : ErrorCategory}
    (h : frameworkCategoryFromName name = some category) :
    frameworkCategoryName category = some name := by
  unfold frameworkCategoryFromName at h
  iterate 13
    rcases ite_some_cases h with ⟨rfl, rfl⟩ | h
    · rfl
  cases h

/-- What the decoder has found of a body whose type has the reserved prefix. -/
inductive ReservedSemantics (problem : ProblemDetails) (status : StatusCode) :
    ProblemSemantics → Prop where
  | application (code : ErrorCode) (htype : problem.typeUri = reservedType "application".toList code.text)
      (hcode : problem.code = some code) :
      ReservedSemantics problem status ⟨.application, categoryFromStatus status⟩
  | framework (category : ErrorCategory) (name : Text) (code : ErrorCode)
      (hname : frameworkCategoryName category = some name)
      (htype : problem.typeUri = reservedType name code.text) (hcode : problem.code = some code) :
      ReservedSemantics problem status ⟨.framework, category⟩

theorem parseReservedType_ok {value : Text} {problem : ProblemDetails} {status : StatusCode}
    {id : Text} {semantics : ProblemSemantics} (htype : problem.typeUri = problemPrefix ++ value)
    (h : parseReservedType value problem status id = .ok semantics) :
    ReservedSemantics problem status semantics := by
  unfold parseReservedType at h
  split at h
  · cases h
  rename_i name code hsplit
  obtain ⟨rfl, -⟩ := splitOnce_eq_some_iff.mp hsplit
  split at h
  · cases h
  rename_i hchecks
  rw [not_or, not_or, not_or, not_not] at hchecks
  obtain ⟨code, hcode, rfl⟩ := Option.map_eq_some_iff.mp hchecks.2.2.2
  have htype : problem.typeUri = reservedType name code.text := by
    rw [htype, reservedType, List.append_assoc]
  split at h
  · rename_i happlication
    cases h
    exact .application code (happlication ▸ htype) hcode
  · split at h
    · rename_i category hname
      cases h
      exact .framework category name code (frameworkCategoryName_of_fromName hname) htype hcode
    · cases h

theorem parseReservedType_error {value : Text} {problem : ProblemDetails} {status : StatusCode}
    {id : Text} {e : Error} (h : parseReservedType value problem status id = .error e) :
    e = invalidProblemType id := by
  unfold parseReservedType at h
  split at h
  · cases h
    rfl
  · split at h
    · cases h
      rfl
    · split at h
      · cases h
      · split at h <;> cases h
        rfl

/-- The decoder's own protocol errors. -/
inductive ProtocolError (id : Text) : Error → Prop where
  | type_ : ProtocolError id (invalidProblemType id)
  | status (message : String) : ProtocolError id (invalidProblemStatus message id)
  | requestId : ProtocolError id (invalidProblemRequestId id)

theorem parseProblemType_error {crates : Crates} {problem : ProblemDetails} {status : StatusCode}
    {id : Text} {e : Error} (h : parseProblemType crates problem status id = .error e) :
    e = invalidProblemType id := by
  unfold parseProblemType at h
  split at h
  · cases h
    rfl
  · split at h
    · exact parseReservedType_error h
    · split at h <;> cases h
      rfl

theorem parseProblemType_ok {crates : Crates} {problem : ProblemDetails} {status : StatusCode}
    {id : Text} {semantics : ProblemSemantics}
    (h : parseProblemType crates problem status id = .ok semantics) :
    ReservedSemantics problem status semantics ∨
      ¬ ReservedType problem.typeUri ∧
        semantics.kind = if status.code < 500 then .application else .framework := by
  unfold parseProblemType at h
  split at h
  · cases h
  rename_i hvariant
  split at h
  · rename_i value hstrip
    exact Or.inl (parseReservedType_ok ((stripPrefix_eq_some_iff).mp hstrip) h)
  · rename_i hstrip
    refine Or.inr ⟨?_, ?_⟩
    · rw [reservedType_iff]
      rintro (hreserved | hcase)
      · obtain ⟨value, hvalue⟩ := (isReserved_iff).mp hreserved
        rw [(stripPrefix_eq_some_iff).mpr hvalue] at hstrip
        cases hstrip
      · exact hvariant hcase
    · split at h <;> cases h
      rfl

/-- What a validated problem has passed. -/
structure ValidProblem (crates : Crates) (status : StatusCode) (id : Text)
    (problem : ProblemDetails) (strict : Bool) (semantics : ProblemSemantics) : Prop where
  error_status : status.isClientError = true ∨ status.isServerError = true
  status_eq : problem.status = status.code
  request_id : strict = true → requestIdIsValid id = true ∧ problem.requestId = some id
  type_ : parseProblemType crates problem status id = .ok semantics
  canonical : semantics.kind = .framework → isReserved problem.typeUri = true →
    semantics.category.canonicalStatus = some status

theorem validateProblem_ok {crates : Crates} {now : Nat} {status : StatusCode} {id : Text}
    {problem : ProblemDetails} {strict : Bool} {semantics : ProblemSemantics}
    (h : validateProblem crates now status id problem strict = .ok semantics) :
    ValidProblem crates status id problem strict semantics := by
  unfold validateProblem at h
  split at h
  · cases h
  rename_i herror
  split at h
  · split at h <;> cases h
  rename_i hstatus
  split at h
  · cases h
  rename_i hid
  split at h
  · cases h
  rename_i found htype
  split at h
  · cases h
  rename_i hcanonical
  cases h
  refine ⟨?_, not_not.mp hstatus, ?_, htype, ?_⟩
  · rw [not_and_or, Bool.not_eq_false, Bool.not_eq_false] at herror
    exact herror
  · intro hstrict
    rw [not_and, not_not] at hid
    have hany := hid hstrict
    rw [Option.any_eq_true] at hany
    obtain ⟨found, hfound, hvalid⟩ := hany
    rw [Bool.and_eq_true, decide_eq_true_eq] at hvalid
    obtain ⟨hvalid, rfl⟩ := hvalid
    exact ⟨hvalid, hfound⟩
  · intro hkind hreserved
    by_contra hne
    exact hcanonical ⟨hkind, hreserved, hne⟩

/-- A refused problem is a protocol error, or has the status error of the response. -/
theorem validateProblem_error {crates : Crates} {now : Nat} {status : StatusCode} {id : Text}
    {problem : ProblemDetails} {strict : Bool} {e : Error}
    (h : validateProblem crates now status id problem strict = .error e) :
    ProtocolError id e ∨
      e = statusError crates now status id .empty ∧ isReserved problem.typeUri = false ∧
        problem.status ≠ status.code ∧
        (status.isClientError = true ∨ status.isServerError = true) := by
  unfold validateProblem at h
  split at h
  · cases h
    exact Or.inl (.status _)
  rename_i herror
  rw [not_and_or, Bool.not_eq_false, Bool.not_eq_false] at herror
  split at h
  · rename_i hstatus
    split at h
    · cases h
      exact Or.inl (.status _)
    · rename_i hreserved
      cases h
      exact Or.inr ⟨rfl, by simpa using hreserved, hstatus, herror⟩
  · split at h
    · cases h
      exact Or.inl .requestId
    · split at h
      · rename_i htype
        cases h
        rw [parseProblemType_error htype]
        exact Or.inl .type_
      · split at h <;> cases h
        exact Or.inl (.status _)

/-! ## The type a body declares -/

/-- A `type` member of an object, or the first item of an array. -/
def DeclaresType (crates : Crates) (body : List UInt8) (typeUri : Text) : Prop :=
  (∃ fields, crates.parseJson body = some (.object fields) ∧
    ("type".toList, .string typeUri) ∈ fields) ∨
  ∃ items, crates.parseJson body = some (.array (.string typeUri :: items))

/-- A key that occurs once is found with its value. -/
theorem get_of_mem_nodup {keep : Text → Bool} {fields : List (Text × Json)} {k : Text} {v : Json}
    (hnodup : ((fields.map Prod.fst).filter keep).Nodup) (hkeep : keep k = true)
    (hmem : (k, v) ∈ fields) : Assoc.get fields k = some v := by
  induction fields with
  | nil => cases hmem
  | cons f fields ih =>
    obtain ⟨k', v'⟩ := f
    rw [Assoc.get_cons]
    rw [List.map_cons, List.filter_cons] at hnodup
    rcases List.mem_cons.mp hmem with heq | hmem
    · cases heq
      rw [if_pos rfl]
    · have hin : k ∈ (fields.map Prod.fst).filter keep :=
        List.mem_filter.mpr ⟨List.mem_map_of_mem (f := Prod.fst) hmem, hkeep⟩
      by_cases hk : k' = k
      · subst hk
        rw [if_pos hkeep] at hnodup
        exact absurd hin (List.nodup_cons.mp hnodup).1
      · rw [if_neg hk]
        apply ih _ hmem
        split at hnodup
        · exact (List.nodup_cons.mp hnodup).2
        · exact hnodup

theorem ofMembers_typeUri {crates : Crates} {typeUri title status detail instance_ code requestId
    retryable details : Option Json} {problem : ProblemDetails}
    (h : ProblemDetails.ofMembers crates typeUri title status detail instance_ code requestId
      retryable details = some problem) : typeUri.bind textOf = some problem.typeUri := by
  unfold ProblemDetails.ofMembers at h
  obtain ⟨found, hfound, h⟩ := Option.bind_eq_some_iff.mp h
  obtain ⟨_, _, h⟩ := Option.bind_eq_some_iff.mp h
  obtain ⟨_, _, h⟩ := Option.bind_eq_some_iff.mp h
  obtain ⟨_, _, h⟩ := Option.bind_eq_some_iff.mp h
  obtain ⟨_, _, h⟩ := Option.bind_eq_some_iff.mp h
  obtain ⟨_, _, h⟩ := Option.bind_eq_some_iff.mp h
  obtain ⟨_, _, h⟩ := Option.bind_eq_some_iff.mp h
  obtain ⟨_, _, h⟩ := Option.bind_eq_some_iff.mp h
  obtain ⟨_, _, h⟩ := Option.bind_eq_some_iff.mp h
  cases h
  exact hfound

theorem typeUri_of_declares {crates : Crates} {body : List UInt8} {typeUri : Text}
    {problem : ProblemDetails} (h : DeclaresType crates body typeUri)
    (hread : ProblemDetails.fromSlice crates body = some problem) : problem.typeUri = typeUri := by
  obtain ⟨v, hparse, hread⟩ := Option.bind_eq_some_iff.mp hread
  rcases h with ⟨fields, hfields, hmem⟩ | ⟨items, hitems⟩
  · rw [hfields] at hparse
    cases hparse
    obtain ⟨hnodup, hmembers⟩ := Option.ite_none_right_eq_some.mp hread
    have hget := get_of_mem_nodup hnodup (by decide) hmem
    have htype := ofMembers_typeUri hmembers
    simp only [hget] at htype
    exact (Option.some.inj htype).symm
  · rw [hitems] at hparse
    cases hparse
    unfold ProblemDetails.ofJson at hread
    split at hread
    · rename_i heq
      cases heq
    · rename_i heq
      cases heq
      exact (Option.some.inj (ofMembers_typeUri hread)).symm
    · cases hread

/-! ## Guarded types -/

/-- The checks on a body of a reserved type with the category `name`. -/
def PassesChecks (crates : Crates) (status : StatusCode) (id : Text) (body : List UInt8)
    (strict : Bool) (typeUri name : Text) : Prop :=
  ∃ problem code, ProblemDetails.fromSlice crates body = some problem ∧
    typeUri = reservedType name code.text ∧ problem.code = some code ∧
    problem.status = status.code ∧ (strict = true → problem.requestId = some id)

def ApplicationType (typeUri : Text) : Prop :=
  ∃ code, typeUri = reservedType "application".toList code

/-- **What the decoder owes for a type**: a reserved type passes all checks of its category
or ends in a protocol error, and no other type makes a 4xx response retryable. -/
def TypeGuarded (crates : Crates) (now : Nat) (status : StatusCode) (id : Text)
    (body : List UInt8) (headers : HeaderMap) (strict : Bool) (typeUri : Text) : Prop :=
  let e := decodeProblem crates now status id body headers strict
  (ReservedType typeUri →
    (∃ category name, frameworkCategoryName category = some name ∧
      category.canonicalStatus = some status ∧
      PassesChecks crates status id body strict typeUri name ∧
      e.kind = .framework ∧ e.category = category) ∨
    (PassesChecks crates status id body strict typeUri "application".toList ∧
      e.kind = .application) ∨
    ∃ e', ProtocolError id e' ∧ e = e'.withHeaders headers) ∧
  (ApplicationType typeUri ∨ ¬ ReservedType typeUri → status.isClientError = true →
    (classifyError e).isRetryable = false)

theorem code_of_protocolError {id : Text} {e : Error} (h : ProtocolError id e) :
    e.code ≠ remoteHttpError := by
  cases h with
  | type_ =>
    show (⟨"invalid_problem_type".toList, by decide⟩ : ErrorCode) ≠ remoteHttpError
    decide
  | status message =>
    show (⟨"invalid_problem_status".toList, by decide⟩ : ErrorCode) ≠ remoteHttpError
    decide
  | requestId =>
    show (⟨"invalid_problem_request_id".toList, by decide⟩ : ErrorCode) ≠ remoteHttpError
    decide

theorem isRetryable_protocolError {id : Text} {e : Error} (h : ProtocolError id e)
    (headers : HeaderMap) : (classifyError (e.withHeaders headers)).isRetryable = false := by
  cases h <;> rfl

theorem isRetryable_statusError {crates : Crates} {now : Nat} {status : StatusCode} {id : Text}
    {headers : HeaderMap} (h : status.isClientError = true) (headers' : HeaderMap) :
    (classifyError ((statusError crates now status id headers).withHeaders headers')).isRetryable =
      false := by
  apply isRetryable_application
  show (if status.isClientError = true then ErrorKind.application else .framework) = _
  rw [if_pos h]

/-- The category's name can be read off a reserved type. -/
theorem reservedType_inj {name name' code code' : Text} (h : ':' ∉ name) (h' : ':' ∉ name')
    (heq : reservedType name code = reservedType name' code') : name = name' ∧ code = code' := by
  unfold reservedType at heq
  rw [List.append_assoc, List.append_assoc] at heq
  have hsplit := congrArg (splitOnce ':') (List.append_cancel_left heq)
  rw [splitOnce_append h, splitOnce_append h', Option.some.injEq, Prod.mk.injEq] at hsplit
  exact hsplit

theorem colon_not_mem_name {category : ErrorCategory} {name : Text}
    (h : frameworkCategoryName category = some name) :
    ':' ∉ name ∧ name ≠ "application".toList := by
  cases category <;> cases h <;> decide

/-- The second part holds of every body. -/
theorem not_isRetryable_of_type {crates : Crates} {now : Nat} {status : StatusCode} {id : Text}
    {body : List UInt8} {headers : HeaderMap} {strict : Bool} {typeUri : Text}
    (hdeclares : DeclaresType crates body typeUri)
    (htype : ApplicationType typeUri ∨ ¬ ReservedType typeUri)
    (hstatus : status.isClientError = true) :
    (classifyError (decodeProblem crates now status id body headers strict)).isRetryable =
      false := by
  unfold decodeProblem
  split
  · exact isRetryable_statusError hstatus headers
  rename_i problem hread
  have huri := typeUri_of_declares hdeclares hread
  split
  · rename_i e he
    rcases validateProblem_error he with hprotocol | ⟨rfl, -⟩
    · exact isRetryable_protocolError hprotocol headers
    · exact isRetryable_statusError hstatus _
  · rename_i semantics hvalid
    apply isRetryable_application
    show semantics.kind = .application
    rcases parseProblemType_ok (validateProblem_ok hvalid).type_ with hreserved | ⟨-, hkind⟩
    · cases hreserved with
      | application => rfl
      | framework category name code hname hproblem =>
        exfalso
        rw [huri] at hproblem
        rcases htype with ⟨code', hcode'⟩ | hnot
        · obtain ⟨hcolon, hne⟩ := colon_not_mem_name hname
          have := reservedType_inj (by decide) hcolon (hcode'.symm.trans hproblem)
          exact hne this.1.symm
        · apply hnot
          rw [hproblem, reservedType, List.append_assoc]
          exact reservedType_problemPrefix _
    · have hlt : status.code < 500 := by
        unfold StatusCode.isClientError at hstatus
        rw [Bool.and_eq_true, decide_eq_true_eq, decide_eq_true_eq] at hstatus
        exact hstatus.2
      rw [hkind, if_pos hlt]

/-- The bodies of which the decoder keeps its word: whatever has a reserved type can be
read as a problem, and one in another case has the status of the response. -/
def ReadableType (crates : Crates) (status : StatusCode) (body : List UInt8) (typeUri : Text) :
    Prop :=
  ReservedType typeUri →
    ∃ problem, ProblemDetails.fromSlice crates body = some problem ∧
      (isReserved typeUri = true ∨ problem.status = status.code ∨
        (status.isClientError = false ∧ status.isServerError = false))

theorem typeGuarded_of_readable {crates : Crates} {now : Nat} {status : StatusCode} {id : Text}
    {body : List UInt8} {headers : HeaderMap} {strict : Bool} {typeUri : Text}
    (hdeclares : DeclaresType crates body typeUri)
    (hreadable : ReadableType crates status body typeUri) :
    TypeGuarded crates now status id body headers strict typeUri := by
  refine ⟨fun hreserved => ?_, fun htype hstatus =>
    not_isRetryable_of_type hdeclares htype hstatus⟩
  obtain ⟨problem, hread, hcase⟩ := hreadable hreserved
  have huri := typeUri_of_declares hdeclares hread
  simp only [decodeProblem, hread]
  split
  · rename_i e he
    rcases validateProblem_error he with hprotocol | ⟨-, hnot, hne, herror⟩
    · exact Or.inr (Or.inr ⟨e, hprotocol, rfl⟩)
    · exfalso
      rw [huri] at hnot
      rcases hcase with h | h | ⟨hc, hs⟩
      · rw [hnot] at h
        cases h
      · exact hne h
      · rw [hc, hs] at herror
        simp at herror
  · rename_i semantics hvalid
    have hv := validateProblem_ok hvalid
    have hid : strict = true → problem.requestId = some id := fun h => (hv.request_id h).2
    rcases parseProblemType_ok hv.type_ with htype | ⟨hnot, -⟩
    · cases htype with
      | application code htype hcode =>
        rw [huri] at htype
        exact Or.inr (Or.inl ⟨⟨problem, code, hread, htype, hcode, hv.status_eq, hid⟩, rfl⟩)
      | framework category name code hname htype hcode =>
        have hcanonical := hv.canonical rfl (by
          rw [htype, reservedType, List.append_assoc]
          exact (isReserved_iff).mpr ⟨_, rfl⟩)
        rw [huri] at htype
        exact Or.inl ⟨category, name, hname, hcanonical,
          ⟨problem, code, hread, htype, hcode, hv.status_eq, hid⟩, rfl, rfl⟩
    · rw [huri] at hnot
      exact absurd hreserved hnot

section

variable {crates : Crates} {now : Nat} {status : StatusCode} {id : Text} {body : List UInt8}
  {headers : HeaderMap} {strict : Bool}

theorem decodeProblem_unreadable (hread : ProblemDetails.fromSlice crates body = none) :
    decodeProblem crates now status id body headers strict =
      statusError crates now status id headers := by
  unfold decodeProblem
  rw [hread]

/-- A type without the reserved prefix whose status disagrees. -/
theorem decodeProblem_mismatch {problem : ProblemDetails}
    (hread : ProblemDetails.fromSlice crates body = some problem)
    (hnot : isReserved problem.typeUri = false) (hne : problem.status ≠ status.code)
    (herror : ¬ (status.isClientError = false ∧ status.isServerError = false)) :
    decodeProblem crates now status id body headers strict =
      (statusError crates now status id .empty).withHeaders headers := by
  have hmismatch : validateProblem crates now status id problem strict =
      .error (statusError crates now status id .empty) := by
    unfold validateProblem
    rw [if_neg herror, if_pos hne, hnot, if_neg Bool.false_ne_true]
  unfold decodeProblem
  rw [hread]
  simp only [hmismatch]

end

theorem readable_of_typeGuarded {crates : Crates} {now : Nat} {status : StatusCode} {id : Text}
    {body : List UInt8} {headers : HeaderMap} {strict : Bool} {typeUri : Text}
    (hdeclares : DeclaresType crates body typeUri)
    (hguarded : TypeGuarded crates now status id body headers strict typeUri) :
    ReadableType crates status body typeUri := by
  intro hreserved
  have houtcome := hguarded.1 hreserved
  cases hread : ProblemDetails.fromSlice crates body with
  | none =>
    exfalso
    rw [decodeProblem_unreadable hread] at houtcome
    rcases houtcome with ⟨_, _, _, _, ⟨_, _, h, _⟩, _⟩ | ⟨⟨_, _, h, _⟩, _⟩ | ⟨e, he, heq⟩
    · rw [hread] at h
      cases h
    · rw [hread] at h
      cases h
    · exact code_of_protocolError he (congrArg Error.code heq).symm
  | some problem =>
    refine ⟨problem, rfl, ?_⟩
    have huri := typeUri_of_declares hdeclares hread
    by_contra hcase
    rw [not_or, not_or, Bool.not_eq_true] at hcase
    obtain ⟨hnot, hne, herror⟩ := hcase
    rw [← huri] at hnot
    rw [decodeProblem_mismatch hread hnot hne herror] at houtcome
    rcases houtcome with ⟨_, _, _, _, ⟨_, _, h, _, _, hs, _⟩, _⟩ | ⟨⟨_, _, h, _, _, hs, _⟩, _⟩ |
      ⟨e, he, heq⟩
    · rw [hread] at h
      cases h
      exact hne hs
    · rw [hread] at h
      cases h
      exact hne hs
    · exact code_of_protocolError he (congrArg Error.code heq).symm

/-- **A reserved type is guarded exactly when its body can be read as a problem** whose
status agrees if the prefix is written in another case. -/
theorem typeGuarded_iff {crates : Crates} {now : Nat} {status : StatusCode} {id : Text}
    {body : List UInt8} {headers : HeaderMap} {strict : Bool} {typeUri : Text}
    (hdeclares : DeclaresType crates body typeUri) :
    TypeGuarded crates now status id body headers strict typeUri ↔
      ReadableType crates status body typeUri :=
  ⟨readable_of_typeGuarded hdeclares, typeGuarded_of_readable hdeclares⟩

/-! ## Forged problems -/

/-- The document of a problem without its optional fields but the code. -/
def problemDocument (typeUri : String) (status : Nat) (code : String) : Json :=
  .object [("type".toList, .string typeUri.toList), ("title".toList, .string []),
    ("status".toList, .number (decimal status)), ("code".toList, .string code.toList)]

def problemBody (typeUri : String) (status : Nat) (code : String) : List UInt8 :=
  utf8 (problemDocument typeUri status code).print

theorem parseJson_problemBody (typeUri : String) (status : Nat) (code : String) :
    jsonCrates.parseJson (problemBody typeUri status code) =
      some (problemDocument typeUri status code) :=
  jsonCrates_documented.reads _
    ⟨trivial, trivial, isNumber_decimal status, trivial, trivial⟩

theorem declaresType_problemBody (typeUri : String) (status : Nat) (code : String) :
    DeclaresType jsonCrates (problemBody typeUri status code) typeUri.toList :=
  Or.inl ⟨_, parseJson_problemBody typeUri status code, List.mem_cons_self⟩

theorem fromSlice_problemBody (typeUri : String) (status : Nat) (code : String) :
    ProblemDetails.fromSlice jsonCrates (problemBody typeUri status code) =
      ProblemDetails.ofJson jsonCrates (problemDocument typeUri status code) := by
  unfold ProblemDetails.fromSlice
  rw [parseJson_problemBody, Option.bind_some]

theorem typeGuarded_unavailable :
    TypeGuarded jsonCrates 0 .serviceUnavailable "request-1".toList
      (problemBody "urn:fusen:error:unavailable:not_ready" 503 "not_ready") .empty false
      "urn:fusen:error:unavailable:not_ready".toList := by
  refine (typeGuarded_iff (declaresType_problemBody _ _ _)).mpr fun _ => ?_
  rw [fromSlice_problemBody]
  exact ⟨_, rfl, Or.inl (by decide)⟩

/-- A reserved type with an ill-formed code, and one in another case with another status,
both end in a framework error that is retried. -/
theorem forged_unavailable :
    (let body := problemBody "urn:fusen:error:unavailable:Not-Ready" 503 "Not-Ready"
      let e := decodeProblem jsonCrates 0 .serviceUnavailable "request-1".toList body .empty false
      ¬ TypeGuarded jsonCrates 0 .serviceUnavailable "request-1".toList body .empty false
          "urn:fusen:error:unavailable:Not-Ready".toList ∧
        e.kind = .framework ∧ e.category = .unavailable ∧
        (classifyError e).isRetryable = true) ∧
    (let body := problemBody "URN:fusen:error:unavailable:not_ready" 400 "not_ready"
      let e := decodeProblem jsonCrates 0 .serviceUnavailable "request-1".toList body .empty false
      ¬ TypeGuarded jsonCrates 0 .serviceUnavailable "request-1".toList body .empty false
          "URN:fusen:error:unavailable:not_ready".toList ∧
        e.kind = .framework ∧ e.category = .unavailable ∧
        (classifyError e).isRetryable = true) := by
  have hill : ProblemDetails.fromSlice jsonCrates
      (problemBody "urn:fusen:error:unavailable:Not-Ready" 503 "Not-Ready") = none := by
    rw [fromSlice_problemBody, ← Option.not_isSome_iff_eq_none]
    decide +kernel
  have hother : ((ProblemDetails.fromSlice jsonCrates
      (problemBody "URN:fusen:error:unavailable:not_ready" 400 "not_ready")).map fun problem =>
        (problem.status, isReserved problem.typeUri)) = some (400, false) := by
    rw [fromSlice_problemBody]
    decide +kernel
  obtain ⟨problem, hread, hproblem⟩ := Option.map_eq_some_iff.mp hother
  obtain ⟨hstatus, hnot⟩ := Prod.mk.inj hproblem
  refine ⟨⟨fun hguarded => ?_, ?_⟩, ⟨fun hguarded => ?_, ?_⟩⟩
  · obtain ⟨_, hsome, -⟩ :=
      readable_of_typeGuarded (declaresType_problemBody _ _ _) hguarded (by decide)
    rw [hill] at hsome
    cases hsome
  · rw [decodeProblem_unreadable hill]
    decide +kernel
  · obtain ⟨_, hsome, h⟩ :=
      readable_of_typeGuarded (declaresType_problemBody _ _ _) hguarded (by decide)
    obtain rfl := Option.some.inj (hread.symm.trans hsome)
    rw [hstatus] at h
    exact absurd h (by decide)
  · rw [decodeProblem_mismatch hread hnot (by rw [hstatus]; decide) (by decide)]
    decide +kernel

end Fusen.Wire
