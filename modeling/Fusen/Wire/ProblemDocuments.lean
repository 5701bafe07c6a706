import Fusen.Wire.Problem

/-!
# Problem documents

What a problem's document is read back as (`fromSlice_bytes`), and that the document
without its optional fields is small (`length_minimal`).  `Crates.Documented` is what
both rely on; `jsonCrates` has the JSON reader of this development.
-/

namespace Fusen.Wire

open Lib

/-! ## What is relied on -/

/-- Printable ASCII that is written without escapes. -/
def isPlainChar (c : Char) : Bool := 32 ≤ c.toNat && c.toNat < 127 && c ≠ '"' && c ≠ '\\'

/-- A document that was printed is read, and reason phrases are short. -/
structure Crates.Documented (crates : Crates) : Prop where
  reads : ∀ v : Json, v.Numbers → crates.parseJson (utf8 v.print) = some v
  reason : ∀ status reason, crates.canonicalReason status = some reason →
    reason.length ≤ 64 ∧ reason.all isPlainChar = true

/-! ## An instance -/

def canonicalReason (status : StatusCode) : Option Text :=
  match status.code with
  | 400 => some "Bad Request".toList
  | 401 => some "Unauthorized".toList
  | 403 => some "Forbidden".toList
  | 404 => some "Not Found".toList
  | 409 => some "Conflict".toList
  | 413 => some "Payload Too Large".toList
  | 429 => some "Too Many Requests".toList
  | 500 => some "Internal Server Error".toList
  | 501 => some "Not Implemented".toList
  | 502 => some "Bad Gateway".toList
  | 503 => some "Service Unavailable".toList
  | 504 => some "Gateway Timeout".toList
  | _ => none

/-- The recursion limit is 128, of which the document takes one level. -/
def toMap : Json → Option ErrorDetails
  | .object fields =>
    if h : (Json.object fields).DistinctKeys then
      if (Json.object fields).depth ≤ 126 then some ⟨fields, h⟩ else none
    else none
  | _ => none

/-- The reader of this development; dates and addresses are left out. -/
def jsonCrates : Crates where
  canonicalReason := canonicalReason
  parseJson := fun body => (utf8Text body).bind fun s => Json.read s.length s
  toMap := toMap
  parseHttpDate := fun _ => none
  isIpv6Addr := fun _ => false

theorem jsonCrates_documented : jsonCrates.Documented where
  reads := by
    intro v hv
    show (utf8Text (utf8 v.print)).bind _ = _
    rw [utf8Text_utf8, Option.bind_some, Json.read_print hv,
      if_pos (Json.depth_le_length_print v)]
  reason := by
    intro status reason h
    have h : canonicalReason status = some reason := h
    unfold canonicalReason at h
    split at h <;> cases h <;> decide

theorem toMap_object (d : ErrorDetails) :
    toMap (.object d.fields) = if (Json.object d.fields).depth ≤ 126 then some d else none := by
  show (if h : (Json.object d.fields).DistinctKeys then _ else none : Option ErrorDetails) = _
  rw [dif_pos d.distinct]

/-! ## Reading back -/

namespace ProblemDetails

/-- What the code's types say of a problem: its status is a status, its details are a
JSON value. -/
structure Valid (p : ProblemDetails) : Prop where
  status_lt : p.status < 2 ^ 16
  numbers : ∀ d ∈ p.details, (Json.object d.fields).Numbers

variable {crates : Crates}

theorem optionalMember_sublist (name : String) (value : Option Json) :
    ((optionalMember name value).map Prod.fst).Sublist [name.toList] := by
  cases value with
  | none => exact List.nil_sublist _
  | some v => exact List.Sublist.refl _

/-- The members have different names. -/
theorem members_sublist (p : ProblemDetails) : (p.members.map Prod.fst).Sublist fieldNames := by
  have h := ((((((List.Sublist.refl ["type".toList, "title".toList, "status".toList]).append
    (optionalMember_sublist "detail" (p.detail.map .string))).append
    (optionalMember_sublist "instance" (p.instance_.map .string))).append
    (optionalMember_sublist "code" (p.code.map fun c => .string c.text))).append
    (optionalMember_sublist "request_id" (p.requestId.map .string))).append
    (List.Sublist.refl ["retryable".toList])).append
    (optionalMember_sublist "details" (p.details.map fun d => .object d.fields))
  unfold members
  simp only [List.map_append]
  exact h

theorem u16Of_decimal {n : Nat} (h : n < 2 ^ 16) : u16Of (.number (decimal n)) = some n :=
  parseUnsigned_decimal h

theorem errorCodeOf_text (code : ErrorCode) : errorCodeOf (.string code.text) = some code := by
  show ErrorCode.new code.text = _
  rw [ErrorCode.new, dif_pos code.valid]

/-- The details as the reader finds them. -/
def readDetails (crates : Crates) (p : ProblemDetails) : Option (Option ErrorDetails) :=
  match p.details with
  | none => some none
  | some d => (crates.toMap (.object d.fields)).map some

theorem ofMembers_members (p : ProblemDetails) (h : p.status < 2 ^ 16) :
    ofMembers crates (some (.string p.typeUri)) (some (.string p.title))
      (some (.number (decimal p.status))) (p.detail.map .string) (p.instance_.map .string)
      (p.code.map fun c => .string c.text) (p.requestId.map .string)
      (some (.bool p.retryable)) (p.details.map fun d => .object d.fields) =
    (readDetails crates p).map fun d => { p with details := d } := by
  obtain ⟨typeUri, title, status, detail, instance_, code, requestId, retryable, details⟩ := p
  have hdetail : optionOf textOf ((detail.map Json.string).getD .null) = some detail := by
    cases detail <;> rfl
  have hinstance : optionOf textOf ((instance_.map Json.string).getD .null) = some instance_ := by
    cases instance_ <;> rfl
  have hid : optionOf textOf ((requestId.map Json.string).getD .null) = some requestId := by
    cases requestId <;> rfl
  have hcode : optionOf errorCodeOf ((code.map fun c => Json.string c.text).getD .null) =
      some code := by
    cases code with
    | none => rfl
    | some code =>
      show (errorCodeOf (.string code.text)).map some = _
      rw [errorCodeOf_text]
      rfl
  have hdetails : optionOf crates.toMap ((details.map fun d => Json.object d.fields).getD .null) =
      readDetails crates ⟨typeUri, title, status, detail, instance_, code, requestId, retryable,
        details⟩ := by
    cases details <;> rfl
  unfold ofMembers
  rw [hdetail, hinstance, hid, hcode, hdetails]
  simp only [Option.bind_some, textOf, u16Of_decimal h, Option.getD_some, boolOf]
  cases readDetails crates _ <;> rfl

theorem ofJson_toJson (p : ProblemDetails) (h : p.status < 2 ^ 16) :
    ofJson crates p.toJson = (readDetails crates p).map fun d => { p with details := d } := by
  have hnodup : ((p.members.map Prod.fst).filter fieldNames.contains).Nodup :=
    (p.members_sublist.filter _).nodup (by decide)
  rw [← ofMembers_members p h]
  show (if ((p.members.map Prod.fst).filter fieldNames.contains).Nodup then _ else none) = _
  rw [if_pos hnodup]
  obtain ⟨typeUri, title, status, detail, instance_, code, requestId, retryable, details⟩ := p
  cases detail <;> cases instance_ <;> cases code <;> cases requestId <;> cases details <;> rfl

theorem numbersFields_append (l m : List (Text × Json)) :
    Json.NumbersFields (l ++ m) ↔ Json.NumbersFields l ∧ Json.NumbersFields m := by
  induction l with
  | nil => simp [Json.NumbersFields]
  | cons f l ih => simp [Json.NumbersFields, ih, and_assoc]

theorem numbersFields_optionalMember (name : String) (value : Option Json) :
    Json.NumbersFields (optionalMember name value) ↔ ∀ v ∈ value, v.Numbers := by
  cases value <;> simp [optionalMember, Json.NumbersFields]

theorem numbers_toJson {p : ProblemDetails} (h : p.Valid) : p.toJson.Numbers := by
  show Json.NumbersFields p.members
  simp only [members, numbersFields_append, numbersFields_optionalMember, Option.mem_map]
  refine ⟨⟨⟨⟨⟨⟨?_, ?_⟩, ?_⟩, ?_⟩, ?_⟩, ?_⟩, ?_⟩
  · exact ⟨trivial, trivial, isNumber_decimal p.status, trivial⟩
  · rintro v ⟨_, -, rfl⟩
    trivial
  · rintro v ⟨_, -, rfl⟩
    trivial
  · rintro v ⟨_, -, rfl⟩
    trivial
  · rintro v ⟨_, -, rfl⟩
    trivial
  · exact ⟨trivial, trivial⟩
  · rintro v ⟨d, hd, rfl⟩
    exact h.numbers d hd

/-- **A problem is read back**, if its details are. -/
theorem fromSlice_bytes (hcrates : crates.Documented) {p : ProblemDetails} (h : p.Valid) :
    fromSlice crates p.bytes = (readDetails crates p).map fun d => { p with details := d } := by
  unfold fromSlice bytes
  rw [hcrates.reads _ (numbers_toJson h), Option.bind_some, ofJson_toJson p h.status_lt]

end ProblemDetails

/-! ## The size of a document without optional fields -/

theorem length_utf8_of_ascii {s : Text} (h : ∀ c ∈ s, c.toNat < 128) : (utf8 s).length = s.length := by
  induction s with
  | nil => rfl
  | cons c s ih =>
    rw [utf8_cons, List.length_append, utf8EncodeChar_ascii c (h c List.mem_cons_self),
      ih fun c hc => h c (List.mem_cons_of_mem _ hc), List.length_singleton, List.length_cons,
      Nat.add_comm]

theorem isPlainChar_iff {c : Char} :
    isPlainChar c = true ↔ 32 ≤ c.toNat ∧ c.toNat < 127 ∧ c ≠ '"' ∧ c ≠ '\\' := by
  simp [isPlainChar, and_assoc]

theorem escapeChar_plain {c : Char} (h : isPlainChar c = true) : Json.escapeChar c = [c] := by
  obtain ⟨hge, -, hquote, hback⟩ := (isPlainChar_iff).mp h
  have hcontrol : ∀ d : Char, d.toNat < 32 → c ≠ d := by
    rintro d hd rfl
    omega
  unfold Json.escapeChar
  rw [if_neg hquote, if_neg hback, if_neg (by omega), if_neg (by omega),
    if_neg (hcontrol _ (by decide)), if_neg (hcontrol _ (by decide)),
    if_neg (hcontrol _ (by decide)), if_neg (by omega)]

theorem length_printString_plain {s : Text} (h : s.all isPlainChar = true) :
    (utf8 (Json.printString s)).length = s.length + 2 := by
  rw [List.all_eq_true] at h
  have hescape : s.flatMap Json.escapeChar = s := by
    induction s with
    | nil => rfl
    | cons c s ih =>
      rw [List.flatMap_cons, escapeChar_plain (h c List.mem_cons_self),
        ih fun c hc => h c (List.mem_cons_of_mem _ hc)]
      rfl
  have hascii : ∀ c ∈ Json.printString s, c.toNat < 128 := by
    intro c hc
    simp only [Json.printString, hescape, List.mem_append, List.mem_cons, List.not_mem_nil,
      or_false] at hc
    rcases hc with (rfl | hc) | rfl
    · decide
    · have := ((isPlainChar_iff).mp (h c hc)).2.1
      omega
    · decide
  rw [length_utf8_of_ascii hascii, Json.printString, hescape]
  simp

/-! ## Texts without escapes -/

theorem isPlainChar_of {c : Char} (h : 32 ≤ c.toNat ∧ c.toNat < 127 ∧ c.toNat ≠ 34 ∧ c.toNat ≠ 92) :
    isPlainChar c = true := by
  refine (isPlainChar_iff).mpr ⟨h.1, h.2.1, ?_, ?_⟩
  · rintro rfl
    exact h.2.2.1 rfl
  · rintro rfl
    exact h.2.2.2 rfl

theorem isPlainChar_isAlphanum {c : Char} (h : c.isAlphanum = true) : isPlainChar c = true := by
  have := toNat_of_isAlphanum h
  apply isPlainChar_of
  omega

theorem all_isPlainChar_isSnakeCase {s : Text} {previous : Option Char}
    (h : isSnakeCase previous s = true) : s.all isPlainChar = true := by
  induction s generalizing previous with
  | nil => rfl
  | cons c s ih =>
    unfold isSnakeCase at h
    rw [Bool.and_eq_true] at h
    rw [List.all_cons, ih h.2, Bool.and_true]
    obtain ⟨h, -⟩ := h
    simp only [Bool.or_eq_true, Bool.and_eq_true, beq_iff_eq] at h
    rcases h with (h | h) | ⟨⟨rfl, -⟩, -⟩
    · exact isPlainChar_isAlphanum (isAlphanum_iff.mpr (.inl (isAlpha_iff.mpr (.inr h))))
    · exact isPlainChar_isAlphanum (isAlphanum_iff.mpr (.inr h))
    · decide

theorem errorCode_plain (code : ErrorCode) :
    code.text.length ≤ 64 ∧ code.text.all isPlainChar = true := by
  have h := code.valid
  simp only [isErrorCode, Bool.and_eq_true, decide_eq_true_eq] at h
  exact ⟨h.1.1.1, all_isPlainChar_isSnakeCase h.2⟩

theorem requestId_plain {id : Text} (h : requestIdIsValid id = true) :
    id.length ≤ 64 ∧ id.all isPlainChar = true := by
  simp only [requestIdIsValid, Bool.and_eq_true, decide_eq_true_eq] at h
  refine ⟨h.1.2, List.all_eq_true.mpr fun c hc => ?_⟩
  have hc := List.all_eq_true.mp h.2 c hc
  simp only [Bool.or_eq_true, beq_iff_eq] at hc
  rcases hc with ((hc | rfl) | rfl) | rfl
  · exact isPlainChar_isAlphanum hc
  all_goals decide

/-! ### As header values -/

theorem fromStr_plain {s : Text} (h : s.all isPlainChar = true) :
    ∃ v, HeaderValue.fromStr s = some v ∧ v.toStr = some s := by
  have hvisible : s.all isVisibleChar = true := by
    rw [List.all_eq_true] at h ⊢
    intro c hc
    obtain ⟨hge, hlt, -⟩ := (isPlainChar_iff).mp (h c hc)
    simp [isVisibleChar, hge, hlt]
  have hbytes : (utf8 s).all isHeaderByte = true := by
    have hall := all_isVisibleByte_utf8 s
    rw [hvisible, List.all_eq_true] at hall
    rw [List.all_eq_true]
    intro b hb
    have hb := hall b hb
    simp only [isVisibleByte, isHeaderByte, Bool.or_eq_true, Bool.and_eq_true,
      decide_eq_true_eq] at hb ⊢
    omega
  have hsome : HeaderValue.fromStr s = some ⟨utf8 s, hbytes⟩ := dif_pos hbytes
  refine ⟨_, hsome, ?_⟩
  rw [HeaderValue.toStr_fromStr hsome, if_pos hvisible]

theorem decimal_plain (n : Nat) : (decimal n).all isPlainChar = true := by
  rw [List.all_eq_true]
  intro c hc
  exact isPlainChar_isAlphanum (by simp [Char.isAlphanum, isDigit_of_mem_decimal hc])

/-! ## Sizes -/

/-- The bytes of a member, with its colon and its comma. -/
def memberSize (f : Text × Json) : Nat :=
  (utf8 (Json.printString f.1)).length + (utf8 f.2.print).length + 2

theorem length_printFields (fields : List (Text × Json)) :
    (utf8 (Json.printFields fields)).length = (fields.map memberSize).sum + 1 := by
  induction fields with
  | nil => rfl
  | cons f fields ih =>
    obtain ⟨k, v⟩ := f
    show (utf8 (',' :: (Json.printString k ++ ':' :: (v.print ++ Json.printFields fields)))).length = _
    simp only [utf8_cons, utf8_append, List.length_append, ih, List.map_cons, List.sum_cons,
      memberSize, utf8EncodeChar_ascii _ (show ','.toNat < 128 by decide),
      utf8EncodeChar_ascii _ (show ':'.toNat < 128 by decide), List.length_singleton]
    omega

theorem length_print_object (fields : List (Text × Json)) :
    (utf8 (Json.object fields).print).length ≤ (fields.map memberSize).sum + 2 := by
  cases fields with
  | nil => decide
  | cons f fields =>
    obtain ⟨k, v⟩ := f
    show (utf8 ('\x7b' :: (Json.printString k ++ ':' :: (v.print ++ Json.printFields fields)))).length ≤ _
    simp only [utf8_cons, utf8_append, List.length_append, length_printFields, List.map_cons,
      List.sum_cons, memberSize, utf8EncodeChar_ascii _ (show '\x7b'.toNat < 128 by decide),
      utf8EncodeChar_ascii _ (show ':'.toNat < 128 by decide), List.length_singleton]
    omega

theorem length_decimal {n : Nat} (h : n < 1000) : (decimal n).length ≤ 3 :=
  (Nat.length_toDigits_le_iff (by decide) (by decide)).mpr h

theorem memberSize_plain (name : String) {s : Text} {n : Nat} (hs : s.length ≤ n)
    (hplain : s.all isPlainChar = true) (hname : name.toList.all isPlainChar = true) :
    memberSize (name.toList, .string s) ≤ name.toList.length + n + 6 := by
  unfold memberSize
  rw [length_printString_plain hname]
  show _ + (utf8 (Json.printString s)).length + 2 ≤ _
  rw [length_printString_plain hplain]
  omega

namespace ProblemDetails

/-- **The document without its optional fields fits the limit.** -/
theorem length_minimal {p : ProblemDetails} (htype : p.typeUri.length ≤ 128)
    (htypePlain : p.typeUri.all isPlainChar = true) (htitle : p.title.length ≤ 64)
    (htitlePlain : p.title.all isPlainChar = true) (hstatus : p.status < 1000)
    (hid : ∀ id ∈ p.requestId, id.length ≤ 64 ∧ id.all isPlainChar = true) :
    p.withoutOptionalFields.bytes.length ≤ EMERGENCY_PROBLEM_LIMIT := by
  have h₁ := memberSize_plain "type" htype htypePlain (by decide)
  have h₂ := memberSize_plain "title" htitle htitlePlain (by decide)
  have h₃ : memberSize ("status".toList, .number (decimal p.status)) ≤ 13 := by
    have hascii : ∀ c ∈ decimal p.status, c.toNat < 128 := by
      intro c hc
      have := isDigit_iff.mp (isDigit_of_mem_decimal hc)
      omega
    show 8 + (utf8 (decimal p.status)).length + 2 ≤ 13
    rw [length_utf8_of_ascii hascii]
    have := length_decimal hstatus
    omega
  have h₄ : ((optionalMember "code" (p.code.map fun c => .string c.text)).map memberSize).sum ≤
      100 := by
    cases p.code with
    | none => decide
    | some code =>
      have h := memberSize_plain "code" (errorCode_plain code).1 (errorCode_plain code).2
        (by decide)
      simp only [Option.map_some, optionalMember, List.map_cons, List.map_nil, List.sum_cons,
        List.sum_nil]
      have : "code".toList.length = 4 := rfl
      omega
  have h₅ : ((optionalMember "request_id" (p.requestId.map .string)).map memberSize).sum ≤ 100 := by
    cases hp : p.requestId with
    | none => decide
    | some id =>
      have hid := hid id hp
      have h := memberSize_plain "request_id" hid.1 hid.2 (by decide)
      simp only [Option.map_some, optionalMember, List.map_cons, List.map_nil, List.sum_cons,
        List.sum_nil]
      have : "request_id".toList.length = 10 := rfl
      omega
  have h₆ : memberSize ("retryable".toList, .bool p.retryable) ≤ 20 := by
    cases p.retryable <;> decide
  have : "type".toList.length = 4 := rfl
  have : "title".toList.length = 5 := rfl
  show (utf8 (Json.object p.withoutOptionalFields.members).print).length ≤ 4 * 1024
  refine (length_print_object _).trans ?_
  simp only [members, withoutOptionalFields, Option.map_none, optionalMember, List.append_nil,
    List.map_append, List.map_cons, List.map_nil, List.sum_append, List.sum_cons, List.sum_nil]
    at h₄ h₅ ⊢
  omega

end ProblemDetails

end Fusen.Wire
