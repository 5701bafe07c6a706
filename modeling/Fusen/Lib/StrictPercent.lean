import Fusen.Lib.Percent

/-!
# Strict percent-decoding

`Decoded` relates bytes to what they stand for when every `%` begins an escape.
`decoded_iff` splits it: the escapes are well formed, and the lenient `unescape` reads the
same bytes.
-/

namespace Lib

/-- The decoding of RFC 3986, section 2.1, for bytes without a stray `%`. -/
inductive Decoded : List UInt8 → List UInt8 → Prop
  | nil : Decoded [] []
  | plain {b : UInt8} {bs ds : List UInt8} (hb : b ≠ 37) (h : Decoded bs ds) :
    Decoded (b :: bs) (b :: ds)
  | escape {hi lo : UInt8} {x y : Fin 16} {bs ds : List UInt8} (hhi : hexValue hi = some x)
    (hlo : hexValue lo = some y) (h : Decoded bs ds) :
    Decoded (37 :: hi :: lo :: bs) (UInt8.ofNat (x.val * 16 + y.val) :: ds)

/-- Every `%` is followed by two hexadecimal digits. -/
def WellEscaped (bs : List UInt8) : Prop :=
  ∀ rest, 37 :: rest <:+ bs →
    ∃ hi lo tail, rest = hi :: lo :: tail ∧ (hexValue hi).isSome ∧ (hexValue lo).isSome

theorem WellEscaped.of_suffix {bs bs' : List UInt8} (h : WellEscaped bs) (hs : bs' <:+ bs) :
    WellEscaped bs' :=
  fun rest hrest => h rest (hrest.trans hs)

theorem wellEscaped_nil : WellEscaped [] := by
  intro rest h
  cases List.suffix_nil.mp h

theorem wellEscaped_cons {b : UInt8} {bs : List UInt8} (hb : b ≠ 37) :
    WellEscaped (b :: bs) ↔ WellEscaped bs := by
  constructor
  · exact fun h => h.of_suffix (List.suffix_cons b bs)
  · intro h rest hrest
    rcases List.suffix_cons_iff.mp hrest with heq | hsuffix
    · exact absurd (List.cons.inj heq).1.symm hb
    · exact h rest hsuffix

/-- A digit is no `%`. -/
theorem ne_percent_of_hexValue {b : UInt8} (h : (hexValue b).isSome) : b ≠ 37 := by
  rintro rfl
  exact absurd h (by decide)

theorem wellEscaped_escape {hi lo : UInt8} {bs : List UInt8} (hhi : (hexValue hi).isSome)
    (hlo : (hexValue lo).isSome) (h : WellEscaped bs) : WellEscaped (37 :: hi :: lo :: bs) := by
  intro rest hrest
  rcases List.suffix_cons_iff.mp hrest with heq | hsuffix
  · exact ⟨hi, lo, bs, (List.cons.inj heq).2, hhi, hlo⟩
  · have hdigits : WellEscaped (hi :: lo :: bs) := by
      rw [wellEscaped_cons (ne_percent_of_hexValue hhi), wellEscaped_cons (ne_percent_of_hexValue hlo)]
      exact h
    exact hdigits rest hsuffix

theorem Decoded.wellEscaped {bs ds : List UInt8} (h : Decoded bs ds) : WellEscaped bs := by
  induction h with
  | nil => exact wellEscaped_nil
  | plain hb _ ih => exact (wellEscaped_cons hb).mpr ih
  | escape hhi hlo _ ih =>
    exact wellEscaped_escape (Option.isSome_of_eq_some hhi) (Option.isSome_of_eq_some hlo) ih

theorem Decoded.unescape_eq {bs ds : List UInt8} (h : Decoded bs ds) : unescape bs = ds := by
  induction h with
  | nil => rfl
  | plain hb _ ih => rw [unescape_cons_of_ne hb, ih]
  | escape hhi hlo _ ih => rw [unescape_escape hhi hlo, ih]

theorem decoded_unescape {bs : List UInt8} (h : WellEscaped bs) : Decoded bs (unescape bs) := by
  induction hlen : bs.length using Nat.strong_induction_on generalizing bs with
  | _ n ih =>
    cases bs with
    | nil => exact .nil
    | cons b bs =>
      rw [List.length_cons] at hlen
      by_cases hb : b = 37
      · subst hb
        obtain ⟨hi, lo, tail, rfl, hhi, hlo⟩ := h bs (List.suffix_refl _)
        obtain ⟨x, hx⟩ := Option.isSome_iff_exists.mp hhi
        obtain ⟨y, hy⟩ := Option.isSome_iff_exists.mp hlo
        have htail : WellEscaped tail := h.of_suffix ⟨[37, hi, lo], rfl⟩
        rw [List.length_cons, List.length_cons] at hlen
        rw [unescape_escape hx hy]
        exact .escape hx hy (ih tail.length (by omega) htail rfl)
      · rw [unescape_cons_of_ne hb]
        exact .plain hb (ih bs.length (by omega) ((wellEscaped_cons hb).mp h) rfl)

/-- **Strict decoding is lenient decoding of well-formed escapes.** -/
theorem decoded_iff {bs ds : List UInt8} : Decoded bs ds ↔ WellEscaped bs ∧ unescape bs = ds := by
  constructor
  · exact fun h => ⟨h.wellEscaped, h.unescape_eq⟩
  · rintro ⟨h, rfl⟩
    exact decoded_unescape h

theorem utf8Text_eq_some_iff {bs : List UInt8} {s : Text} : utf8Text bs = some s ↔ utf8 s = bs := by
  constructor
  · exact utf8_of_utf8Text
  · rintro rfl
    exact utf8Text_utf8 s

end Lib
