import Fusen.Lib.Text

/-!
# Percent-encoding

`PercentCodec` is an encoder with two decoders, one for path segments and one
for the names and values of a form, and the laws a caller may rely on.
`PercentCodec.utf8` implements it over UTF-8: everything but the unreserved
characters of RFC 3986 is written as `%XX`, and a `%` that is no escape stands
for itself when decoding.
-/

namespace Lib

def isUnreserved (c : Char) : Bool :=
  c.isAlphanum || c == '-' || c == '.' || c == '_' || c == '~'

/-! ## Escapes -/

def hexValue (b : UInt8) : Option (Fin 16) :=
  if h : 48 ≤ b.toNat ∧ b.toNat < 58 then some ⟨b.toNat - 48, by omega⟩
  else if h : 65 ≤ b.toNat ∧ b.toNat < 71 then some ⟨b.toNat - 55, by omega⟩
  else if h : 97 ≤ b.toNat ∧ b.toNat < 103 then some ⟨b.toNat - 87, by omega⟩
  else none

/-- The bytes a text stands for. -/
def unescape : List UInt8 → List UInt8
  | [] => []
  | [b] => [b]
  | [b, h] => [b, h]
  | b :: h :: l :: rest =>
    match hexValue h, hexValue l with
    | some x, some y =>
      if b = 37 then UInt8.ofNat (x.val * 16 + y.val) :: unescape rest
      else b :: unescape (h :: l :: rest)
    | _, _ => b :: unescape (h :: l :: rest)

theorem unescape_cons_of_ne {b : UInt8} (h : b ≠ 37) (rest : List UInt8) :
    unescape (b :: rest) = b :: unescape rest := by
  match rest with
  | [] => rfl
  | [_] => rfl
  | h' :: l :: rest =>
    rw [unescape]
    split
    · rw [if_neg h]
    · rfl

theorem unescape_escape {h l : UInt8} {x y : Fin 16} (hh : hexValue h = some x)
    (hl : hexValue l = some y) (rest : List UInt8) :
    unescape (37 :: h :: l :: rest) = UInt8.ofNat (x.val * 16 + y.val) :: unescape rest := by
  rw [unescape, hh, hl]
  rfl

/-! ## The codec -/

structure PercentCodec where
  encode : Text → Text
  /-- `none` when the decoded bytes are not text. -/
  decode : Text → Option Text
  /-- Reads `+` as a space, and never fails. -/
  formDecode : Text → Text
  encode_nil : encode [] = []
  encode_chars : ∀ s, ∀ c ∈ encode s, isUnreserved c ∨ c = '%'
  decode_encode : ∀ s, decode (encode s) = some s
  decode_of_utf8 : ∀ s t, utf8Text (unescape (utf8 s)) = some t → decode s = some t
  decode_eq_nil : ∀ s, decode s = some [] → s = []
  formDecode_encode : ∀ s, formDecode (encode s) = s

namespace PercentCodec

variable (codec : PercentCodec)

theorem encode_injective : Function.Injective codec.encode := by
  intro s t h
  have := congrArg codec.decode h
  simpa only [codec.decode_encode, Option.some.injEq] using this

@[simp] theorem encode_eq_nil (s : Text) : codec.encode s = [] ↔ s = [] := by
  conv_lhs => rw [← codec.encode_nil]
  exact codec.encode_injective.eq_iff

@[simp] theorem decode_nil : codec.decode [] = some [] := by
  simpa only [codec.encode_nil] using codec.decode_encode []

/-- Encoded text is free of every character with a meaning of its own. -/
theorem notMem_encode (s : Text) {c : Char} (hc : isUnreserved c = false) (hp : c ≠ '%') :
    c ∉ codec.encode s := by
  intro h
  rcases codec.encode_chars s c h with h | h
  · rw [hc] at h
    cases h
  · exact hp h

/-! ## The UTF-8 implementation -/

def hexDigit (n : Fin 16) : Char :=
  if n.val < 10 then Char.ofNat (48 + n.val) else Char.ofNat (55 + n.val)

def encodeByte (b : UInt8) : Text :=
  if isUnreserved (Char.ofNat b.toNat) then [Char.ofNat b.toNat]
  else ['%', hexDigit ⟨b.toNat / 16, by have := b.toNat_lt; omega⟩,
    hexDigit ⟨b.toNat % 16, by omega⟩]

theorem hexValue_hexDigit : ∀ n : Fin 16, hexValue (UInt8.ofNat (hexDigit n).toNat) = some n := by
  decide

theorem hexDigit_toNat_lt : ∀ n : Fin 16, (hexDigit n).toNat < 128 := by
  decide

theorem isUnreserved_hexDigit : ∀ n : Fin 16, isUnreserved (hexDigit n) = true := by
  decide

theorem lt_of_isUnreserved {c : Char} (h : isUnreserved c = true) : c.toNat < 128 := by
  simp only [isUnreserved, Bool.or_eq_true, beq_iff_eq] at h
  rcases h with (((h | rfl) | rfl) | rfl) | rfl
  · have := toNat_of_isAlphanum h
    omega
  all_goals decide

theorem utf8_hexDigit (n : Fin 16) (s : Text) :
    Lib.utf8 (hexDigit n :: s) = UInt8.ofNat (hexDigit n).toNat :: Lib.utf8 s := by
  rw [utf8_cons, utf8EncodeChar_ascii _ (hexDigit_toNat_lt n)]
  rfl

theorem mem_encodeByte {b : UInt8} {c : Char} (h : c ∈ encodeByte b) :
    isUnreserved c ∨ c = '%' := by
  unfold encodeByte at h
  split at h
  · rename_i hb
    rw [List.mem_singleton] at h
    exact .inl (h ▸ hb)
  · simp only [List.mem_cons, List.not_mem_nil, or_false] at h
    rcases h with rfl | rfl | rfl
    · exact .inr rfl
    · exact .inl (isUnreserved_hexDigit _)
    · exact .inl (isUnreserved_hexDigit _)

/-- Reading back one written byte. -/
theorem unescape_encodeByte (b : UInt8) (rest : List UInt8) :
    unescape (Lib.utf8 (encodeByte b) ++ rest) = b :: unescape rest := by
  have hb := b.toNat_lt
  unfold encodeByte
  split
  · rename_i h
    have hlt := lt_of_isUnreserved h
    have hnat : (Char.ofNat b.toNat).toNat = b.toNat := by
      rw [Char.ofNat, dif_pos (Or.inl (by omega))]
      rfl
    have hne : b ≠ 37 := by
      rintro rfl
      exact absurd h (by decide)
    rw [utf8_cons, utf8EncodeChar_ascii _ hlt, hnat, UInt8.ofNat_toNat]
    exact unescape_cons_of_ne hne rest
  · have hpercent : ∀ s, Lib.utf8 ('%' :: s) = 37 :: Lib.utf8 s := fun _ => rfl
    rw [hpercent, utf8_hexDigit, utf8_hexDigit, utf8_nil]
    simp only [List.cons_append, List.nil_append]
    rw [unescape, hexValue_hexDigit, hexValue_hexDigit]
    simp only [if_true]
    rw [show b.toNat / 16 * 16 + b.toNat % 16 = b.toNat by omega, UInt8.ofNat_toNat]

theorem unescape_utf8_encode (bs : List UInt8) :
    unescape (Lib.utf8 (bs.flatMap encodeByte)) = bs := by
  induction bs with
  | nil => rfl
  | cons b bs ih => rw [List.flatMap_cons, utf8_append, unescape_encodeByte, ih]

theorem unescape_eq_nil {bs : List UInt8} (h : unescape bs = []) : bs = [] := by
  match bs with
  | [] => rfl
  | [_] => cases h
  | [_, _] => cases h
  | b :: hi :: lo :: rest =>
    rw [unescape] at h
    split at h
    · split at h <;> cases h
    · cases h

/-- Text in which `%XX` stands for a byte of its UTF-8 form. -/
def utf8 : PercentCodec where
  encode s := (Lib.utf8 s).flatMap encodeByte
  decode s := utf8Text (unescape (Lib.utf8 s))
  formDecode s :=
    (utf8Text (unescape (Lib.utf8 (s.map fun c => if c = '+' then ' ' else c)))).getD ['\uFFFD']
  encode_nil := rfl
  encode_chars := by
    intro s c hc
    obtain ⟨b, -, hb⟩ := List.mem_flatMap.mp hc
    exact mem_encodeByte hb
  decode_of_utf8 _ _ h := h
  decode_encode s := by rw [unescape_utf8_encode, utf8Text_utf8]
  decode_eq_nil s h := by
    have hnil := unescape_eq_nil (utf8_of_utf8Text h).symm
    cases s with
    | nil => rfl
    | cons c s =>
      rw [utf8_cons, List.append_eq_nil_iff] at hnil
      exact absurd hnil.1 String.utf8EncodeChar_ne_nil
  formDecode_encode s := by
    have hplus : '+' ∉ (Lib.utf8 s).flatMap encodeByte := by
      intro h
      obtain ⟨b, -, hb⟩ := List.mem_flatMap.mp h
      rcases mem_encodeByte hb with h | h
      · exact absurd h (by decide)
      · exact absurd h (by decide)
    have hmap : ((Lib.utf8 s).flatMap encodeByte).map (fun c => if c = '+' then ' ' else c) =
        (Lib.utf8 s).flatMap encodeByte := by
      conv_rhs => rw [← List.map_id ((Lib.utf8 s).flatMap encodeByte)]
      apply List.map_congr_left
      rintro c hc
      rw [if_neg, id]
      rintro rfl
      exact hplus hc
    rw [hmap, unescape_utf8_encode, utf8Text_utf8]
    rfl

end PercentCodec

end Lib
