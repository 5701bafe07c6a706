import Fusen.Contract.Service

/-!
# Routes in the interface macro (`procedural-macro/validate.rs`)

The macro checks a route template itself, on bytes and with its own messages.
`validateRoute_agrees`: it accepts the templates that the contract's
`validateHttpRoute` accepts, with the same placeholders.  An error is its message.
-/

namespace Fusen.Macro

open Lib Contract

/-! ## Identities -/

def isAsciiAlphanumeric (b : UInt8) : Bool :=
  (48 ≤ b && b ≤ 57) || (65 ≤ b && b ≤ 90) || (97 ≤ b && b ≤ 122)

/-- The byte literal of an ASCII character. -/
def byteOf (c : Char) : UInt8 := UInt8.ofNat c.toNat

def isIdentityByte (b : UInt8) : Bool :=
  isAsciiAlphanumeric b || ("._-".toList.map byteOf).contains b

def validateIdentity (value : Text) (field : String) : Except Text Unit :=
  if value ≠ [] ∧ (utf8 value).length ≤ 128 ∧ (utf8 value).all isIdentityByte then .ok ()
  else .error ("invalid ".toList ++ field.toList ++
    ": expected 1-128 ASCII letters, digits, '.', '_' or '-'".toList)

/-! ## Literals -/

def isRfc3986Pchar (b : UInt8) : Bool :=
  isAsciiAlphanumeric b || ("-._~!$&'()*+,;=:@".toList.map byteOf).contains b

def isAsciiHexdigit (b : UInt8) : Bool :=
  (48 ≤ b && b ≤ 57) || (65 ≤ b && b ≤ 70) || (97 ≤ b && b ≤ 102)

def isAsciiLowercase (b : UInt8) : Bool := 97 ≤ b && b ≤ 122

def hexValue (b : UInt8) : UInt8 :=
  if 48 ≤ b && b ≤ 57 then b - 48
  else if 65 ≤ b && b ≤ 70 then b - 65 + 10
  else 0

def escapeSyntax : Text := "HTTP route percent escapes must use uppercase `%HH` syntax".toList

/-- The loop of `validate_route_literal`. -/
def decodeLiteralBytes : List UInt8 → Except Text (List UInt8)
  | [] => .ok []
  | b :: rest =>
    if b = 37 then
      match rest with
      | high :: low :: rest =>
        if !isAsciiHexdigit high || !isAsciiHexdigit low then .error escapeSyntax
        else if isAsciiLowercase high || isAsciiLowercase low then
          .error "HTTP route percent escapes must use uppercase hexadecimal digits".toList
        else if (hexValue high <<< 4) ||| hexValue low < 128 then
          .error "ASCII HTTP path characters must not be percent-encoded".toList
        else (decodeLiteralBytes rest).map (((hexValue high <<< 4) ||| hexValue low) :: ·)
      | _ => .error escapeSyntax
    else if !isRfc3986Pchar b then
      .error ("HTTP route literals must use ASCII RFC 3986 path characters; encode non-ASCII " ++
        "text as uppercase UTF-8 percent escapes").toList
    else (decodeLiteralBytes rest).map (b :: ·)

def validateRouteLiteral (segment : Text) : Except Text Unit :=
  match decodeLiteralBytes (utf8 segment) with
  | .error e => .error e
  | .ok bytes =>
    match utf8Text bytes with
    | none => .error "percent-encoded HTTP route text must be valid UTF-8".toList
    | some decoded =>
      if decoded.any isWhitespace || decoded.any isControl then
        .error "HTTP route literals must not contain whitespace or control characters".toList
      else if decoded = ['.'] ∨ decoded = ['.', '.'] then
        .error "HTTP route templates must not contain '.' or '..' segments".toList
      else .ok ()

/-! ## Routes -/

/-- The loop over the segments of a route; `names` are the placeholders seen so far. -/
def validateRouteSegments (names : List Text) : List Text → Except Text (List Text)
  | [] => .ok names
  | segment :: rest =>
    match stripBraces segment with
    | some name =>
      match validateIdentity name "HTTP path parameter" with
      | .error e => .error e
      | .ok () =>
        if names.contains name then .error "HTTP path parameters must be unique".toList
        else validateRouteSegments (names ++ [name]) rest
    | none =>
      if segment.contains '{' || segment.contains '}' then
        .error "HTTP path parameters must occupy a complete path segment".toList
      else match validateRouteLiteral segment with
        | .error e => .error e
        | .ok () => validateRouteSegments names rest

def validateRoute (path : Text) : Except Text (List Text) :=
  if path.head? ≠ some '/' then
    .error "HTTP route templates must be absolute paths starting with '/'".toList
  else if path.contains '?' || path.contains '#' then
    .error "HTTP route templates must not contain a query or fragment".toList
  else if ['/', '/'] <:+: path ∨ 1 < path.length ∧ path.getLast? = some '/' then
    .error "HTTP route templates must not contain empty or trailing segments".toList
  else validateRouteSegments [] (parts '/' path)

/-! ## Agreement on identities -/

theorem isIdentityByte_ofNat : ∀ n : Fin 256, isIdentityByte (UInt8.ofNat n.val) =
    (decide (n.val < 128) && isIdentityChar (Char.ofNat n.val)) := by
  decide +kernel

theorem isIdentityByte_of_le {b : UInt8} (h : 128 ≤ b.toNat) : isIdentityByte b = false := by
  have hb := isIdentityByte_ofNat ⟨b.toNat, b.toNat_lt⟩
  rw [UInt8.ofNat_toNat, decide_eq_false (Nat.not_lt_of_le h), Bool.false_and] at hb
  exact hb

theorem lt_of_isIdentityChar {c : Char} (h : isIdentityChar c = true) : c.toNat < 128 := by
  simp only [isIdentityChar, Bool.or_eq_true, beq_iff_eq] at h
  rcases h with ((h | rfl) | rfl) | rfl
  · have := toNat_of_isAlphanum h
    omega
  all_goals decide

theorem all_isIdentityByte (c : Char) :
    (String.utf8EncodeChar c).all isIdentityByte = isIdentityChar c := by
  by_cases hascii : c.toNat < 128
  · have hc := isIdentityByte_ofNat ⟨c.toNat, by omega⟩
    rw [decide_eq_true hascii, Bool.true_and, Char.ofNat_toNat] at hc
    rw [utf8EncodeChar_ascii c hascii, List.all_cons, List.all_nil, Bool.and_true]
    exact hc
  · obtain ⟨b, hb⟩ := List.exists_mem_of_ne_nil _ (@String.utf8EncodeChar_ne_nil c)
    have hbyte := isIdentityByte_of_le (le_of_mem_utf8EncodeChar c (Nat.le_of_not_lt hascii) b hb)
    have hchar : isIdentityChar c = false :=
      Bool.eq_false_iff.mpr fun h => hascii (lt_of_isIdentityChar h)
    rw [hchar, List.all_eq_false]
    exact ⟨b, hb, Bool.eq_false_iff.mp hbyte⟩

theorem length_utf8_of_all {s : Text} (h : s.all isIdentityChar = true) :
    (utf8 s).length = s.length := by
  induction s with
  | nil => rfl
  | cons c s ih =>
    rw [List.all_cons, Bool.and_eq_true] at h
    rw [utf8_cons, utf8EncodeChar_ascii c (lt_of_isIdentityChar h.1), List.length_append, ih h.2,
      List.length_singleton, List.length_cons, Nat.add_comm]

/-- The two grammars of identities are the same. -/
theorem validateIdentity_eq_ok_iff {value : Text} {field : String} :
    validateIdentity value field = .ok () ↔ isIdentityComponent value = true := by
  have hall : (utf8 value).all isIdentityByte = value.all isIdentityChar := by
    rw [utf8, List.all_flatMap]
    exact congrArg value.all (funext all_isIdentityByte)
  have hif : validateIdentity value field = .ok () ↔
      value ≠ [] ∧ (utf8 value).length ≤ 128 ∧ (utf8 value).all isIdentityByte = true := by
    unfold validateIdentity
    split
    · rename_i h
      exact iff_of_true rfl h
    · rename_i h
      exact iff_of_false (fun hok => by cases hok) h
  rw [hif, hall]
  simp only [isIdentityComponent, Bool.and_eq_true, and_assoc, decide_eq_true_iff]
  refine and_congr_right fun _ => and_congr_left fun h => ?_
  rw [length_utf8_of_all h]
  exact Iff.rfl

/-! ## Agreement on routes -/

theorem isRfc3986Pchar_eq (b : UInt8) : isRfc3986Pchar b = isRoutePchar b := by
  have hall : ∀ n : Fin 256, isRfc3986Pchar (UInt8.ofNat n.val) =
      isRoutePchar (UInt8.ofNat n.val) := by
    decide +kernel
  have hb := hall ⟨b.toNat, b.toNat_lt⟩
  rwa [UInt8.ofNat_toNat] at hb

/-- A digit that the macro lets pass is one the contract reads, with the same value. -/
theorem uppercaseHexValue_eq (b : UInt8) : uppercaseHexValue b =
    if isAsciiHexdigit b && !isAsciiLowercase b then some (hexValue b).toNat else none := by
  have hall : ∀ n : Fin 256, uppercaseHexValue (UInt8.ofNat n.val) =
      if isAsciiHexdigit (UInt8.ofNat n.val) && !isAsciiLowercase (UInt8.ofNat n.val) then
        some (hexValue (UInt8.ofNat n.val)).toNat
      else none := by
    decide +kernel
  have hb := hall ⟨b.toNat, b.toNat_lt⟩
  rwa [UInt8.ofNat_toNat] at hb

theorem hexValue_lt (b : UInt8) : (hexValue b).toNat < 16 := by
  have hall : ∀ n : Fin 256, (hexValue (UInt8.ofNat n.val)).toNat < 16 := by
    decide +kernel
  have hb := hall ⟨b.toNat, b.toNat_lt⟩
  rwa [UInt8.ofNat_toNat] at hb

theorem shift_or_eq {high low : UInt8} (hh : high.toNat < 16) (hl : low.toNat < 16) :
    (high <<< 4) ||| low = UInt8.ofNat (high.toNat * 16 + low.toNat) := by
  have hall : ∀ m n : Fin 16, (UInt8.ofNat m.val <<< 4) ||| UInt8.ofNat n.val =
      UInt8.ofNat (m.val * 16 + n.val) := by
    decide +kernel
  have h := hall ⟨high.toNat, hh⟩ ⟨low.toNat, hl⟩
  rwa [UInt8.ofNat_toNat, UInt8.ofNat_toNat] at h

theorem toOption_map {α β ε : Type} (x : Except ε α) (f : α → β) :
    (x.map f).toOption = x.toOption.map f := by
  cases x <;> rfl

/-- Which error it is does not matter. -/
theorem toOption_error {α ε ε' : Type} {e : ε} {e' : ε'} :
    (Except.error e : Except ε α).toOption = (Except.error e' : Except ε' α).toOption := rfl

section

variable {high low : UInt8} {rest : List UInt8}

theorem decodeRouteBytes_of_none
    (h : uppercaseHexValue high = none ∨ uppercaseHexValue low = none) :
    decodeRouteBytes (37 :: high :: low :: rest) = .error invalidEscape := by
  rw [decodeRouteBytes, if_pos rfl]
  rcases h with h | h
  · rw [h]
  · rw [h]
    cases uppercaseHexValue high <;> rfl

theorem decodeRouteBytes_of_some {m n : Nat} (hh : uppercaseHexValue high = some m)
    (hl : uppercaseHexValue low = some n) : decodeRouteBytes (37 :: high :: low :: rest) =
      if m * 16 + n < 128 then .error "ASCII route characters must not be percent encoded".toList
      else (decodeRouteBytes rest).map (UInt8.ofNat (m * 16 + n) :: ·) := by
  rw [decodeRouteBytes, if_pos rfl, hh, hl]

theorem decodeRouteBytes_of_short (h : ∀ high low tail, rest = high :: low :: tail → False) :
    decodeRouteBytes (37 :: rest) = .error invalidEscape := by
  cases rest with
  | nil => rfl
  | cons high rest =>
    cases rest with
    | nil => rfl
    | cons low tail => exact (h high low tail rfl).elim

end

theorem decodeLiteralBytes_agrees (bs : List UInt8) :
    (decodeLiteralBytes bs).toOption = (decodeRouteBytes bs).toOption := by
  have hread {b : UInt8} (hdigit : isAsciiHexdigit b = true) (hcase : isAsciiLowercase b = false) :
      uppercaseHexValue b = some (hexValue b).toNat := by
    rw [uppercaseHexValue_eq, hdigit, hcase]
    rfl
  have hascii (high low : UInt8) : (hexValue high <<< 4) ||| hexValue low < 128 ↔
      (hexValue high).toNat * 16 + (hexValue low).toNat < 128 := by
    have := hexValue_lt high
    have := hexValue_lt low
    rw [UInt8.lt_iff_toNat_lt, shift_or_eq (hexValue_lt high) (hexValue_lt low),
      UInt8.toNat_ofNat', Nat.mod_eq_of_lt (by omega)]
    exact Iff.rfl
  fun_induction decodeLiteralBytes bs with
  | case1 => rfl
  | case2 high low rest h =>
    rw [decodeRouteBytes_of_none]
    · exact toOption_error
    · rw [Bool.or_eq_true, Bool.not_eq_true', Bool.not_eq_true'] at h
      rcases h with h | h
      · left
        rw [uppercaseHexValue_eq, h]
        rfl
      · right
        rw [uppercaseHexValue_eq, h]
        rfl
  | case3 high low rest _ h =>
    rw [decodeRouteBytes_of_none]
    · exact toOption_error
    · rw [Bool.or_eq_true] at h
      rcases h with h | h
      · left
        rw [uppercaseHexValue_eq, h, Bool.not_true, Bool.and_false]
        rfl
      · right
        rw [uppercaseHexValue_eq, h, Bool.not_true, Bool.and_false]
        rfl
  | case4 high low rest hdigits hcase hlt =>
    simp only [Bool.or_eq_true, Bool.not_eq_true', not_or, Bool.not_eq_false,
      Bool.not_eq_true] at hdigits hcase
    rw [hascii] at hlt
    rw [decodeRouteBytes_of_some (hread hdigits.1 hcase.1) (hread hdigits.2 hcase.2), if_pos hlt]
    exact toOption_error
  | case5 high low rest hdigits hcase hlt ih =>
    simp only [Bool.or_eq_true, Bool.not_eq_true', not_or, Bool.not_eq_false,
      Bool.not_eq_true] at hdigits hcase
    rw [hascii] at hlt
    rw [decodeRouteBytes_of_some (hread hdigits.1 hcase.1) (hread hdigits.2 hcase.2), if_neg hlt,
      toOption_map, toOption_map, ih, shift_or_eq (hexValue_lt high) (hexValue_lt low)]
  | case6 rest h =>
    rw [decodeRouteBytes_of_short h]
    exact toOption_error
  | case7 b rest hb hchar =>
    rw [isRfc3986Pchar_eq] at hchar
    rw [decodeRouteBytes.eq_def]
    simp only [if_neg hb, if_pos hchar]
    exact toOption_error
  | case8 b rest hb hchar ih =>
    rw [isRfc3986Pchar_eq] at hchar
    rw [decodeRouteBytes.eq_def]
    simp only [if_neg hb, if_neg hchar]
    rw [toOption_map, toOption_map, ih]

theorem validateRouteLiteral_agrees (segment : Text) : (validateRouteLiteral segment).toOption =
    (decodeRouteLiteral segment).toOption.map fun _ => () := by
  have hbytes := decodeLiteralBytes_agrees (utf8 segment)
  unfold validateRouteLiteral decodeRouteLiteral
  cases hlocal : decodeLiteralBytes (utf8 segment) with
  | error e =>
    rw [hlocal] at hbytes
    cases hcontract : decodeRouteBytes (utf8 segment) with
    | error e' => rfl
    | ok bytes =>
      rw [hcontract] at hbytes
      cases hbytes
  | ok bytes =>
    rw [hlocal] at hbytes
    cases hcontract : decodeRouteBytes (utf8 segment) with
    | error e' =>
      rw [hcontract] at hbytes
      cases hbytes
    | ok bytes' =>
      rw [hcontract] at hbytes
      cases hbytes
      dsimp only
      cases utf8Text bytes with
      | none => rfl
      | some decoded =>
        -- the two order their last checks differently
        dsimp only
        by_cases hdots : decoded = ['.'] ∨ decoded = ['.', '.']
        · rw [if_pos hdots, if_pos hdots]
          split <;> rfl
        · rw [if_neg hdots, if_neg hdots]
          split <;> rfl

theorem validateRouteSegments_agrees (invalid : Text → ContractError) (names segments : List Text) :
    (validateRouteSegments names segments).toOption =
      (validateSegments invalid names segments).toOption := by
  induction segments generalizing names with
  | nil => rfl
  | cons segment rest ih =>
    unfold validateRouteSegments validateSegments
    cases stripBraces segment with
    | some name =>
      dsimp only
      cases hidentity : isIdentityComponent name with
      | true =>
        rw [validateIdentity_eq_ok_iff.mpr hidentity]
        dsimp only
        rw [Bool.not_true, Bool.false_or]
        split
        · rfl
        · exact ih _
      | false =>
        cases hlocal : validateIdentity name "HTTP path parameter" with
        | error e => rfl
        | ok u =>
          exact absurd (validateIdentity_eq_ok_iff.mp hlocal) (Bool.eq_false_iff.mp hidentity)
    | none =>
      dsimp only
      split
      · rfl
      · have hliteral := validateRouteLiteral_agrees segment
        cases hlocal : validateRouteLiteral segment with
        | error e =>
          cases hcontract : decodeRouteLiteral segment with
          | error e' => rfl
          | ok decoded =>
            rw [hlocal, hcontract] at hliteral
            cases hliteral
        | ok u =>
          cases hcontract : decodeRouteLiteral segment with
          | error e' =>
            rw [hlocal, hcontract] at hliteral
            cases hliteral
          | ok decoded => exact ih names

/-- **The macro and the contract accept the same routes**, with the same placeholders. -/
theorem validateRoute_agrees (path : Text) :
    (validateRoute path).toOption = (validateHttpRoute path).toOption := by
  unfold validateRoute validateHttpRoute
  dsimp only
  split
  · rfl
  split
  · rfl
  by_cases hslashes : ['/', '/'] <:+: path
  · rw [if_pos (.inl hslashes), if_pos hslashes]
    rfl
  · rw [if_neg hslashes]
    by_cases hlast : 1 < path.length ∧ path.getLast? = some '/'
    · rw [if_pos (.inr hlast), if_pos hlast]
      rfl
    · rw [if_neg (not_or.mpr ⟨hslashes, hlast⟩), if_neg hlast]
      exact validateRouteSegments_agrees _ [] _

end Fusen.Macro
