import Fusen.Lib.JsonRead

/-!
# Decimal numbers as text

`decimal` writes a number and `parseUnsigned` reads one of an unsigned type with
`bound` values, as the standard library does: a plus sign may stand before the digits.
`parseInteger` reads exactly what `integerText` writes.
-/

namespace Lib

def decimal (n : Nat) : Text := Nat.toDigits 10 n

def parseUnsigned (bound : Nat) (s : Text) : Option Nat :=
  let digits := if s.head? = some '+' then s.tail else s
  if digits ≠ [] ∧ digits.all Char.isDigit = true ∧ Nat.ofDigitChars 10 digits 0 < bound then
    some (Nat.ofDigitChars 10 digits 0)
  else none

theorem decimal_ne_nil (n : Nat) : decimal n ≠ [] := Nat.toDigits_ne_nil

theorem isDigit_of_mem_decimal {n : Nat} {c : Char} (h : c ∈ decimal n) : c.isDigit = true :=
  Nat.isDigit_of_mem_toDigits (by decide) (by decide) h

theorem all_isDigit_decimal (n : Nat) : (decimal n).all Char.isDigit = true :=
  List.all_eq_true.mpr fun _ h => isDigit_of_mem_decimal h

theorem parseUnsigned_decimal {n bound : Nat} (h : n < bound) :
    parseUnsigned bound (decimal n) = some n := by
  have hplus : (decimal n).head? ≠ some '+' := by
    intro hhead
    have := isDigit_of_mem_decimal (List.mem_of_mem_head? hhead)
    exact absurd this (by decide)
  have hvalue : Nat.ofDigitChars 10 (decimal n) 0 = n := Nat.ofDigitChars_ten_toDigits
  unfold parseUnsigned
  simp only [if_neg hplus, hvalue]
  rw [if_pos ⟨decimal_ne_nil n, all_isDigit_decimal n, h⟩]

/-! ## Decimals as JSON numbers -/

theorem isDigit_digitChar : ∀ d, d < 10 → (Nat.digitChar d).isDigit = true := by decide

theorem next_start_digitChar : ∀ d, d < 10 → 0 < d →
    Json.NumberState.start.next (Nat.digitChar d) = some .integer := by decide

theorem foldlM_next_decimal {n : Nat} (hn : 0 < n) :
    (decimal n).foldlM Json.NumberState.next .start = some .integer := by
  induction n using Nat.strong_induction_on with
  | _ n ih =>
    unfold decimal
    by_cases hlt : n < 10
    · rw [Nat.toDigits_of_lt_base hlt, List.foldlM_cons, next_start_digitChar n hlt hn]
      rfl
    · have hdigit := isDigit_digitChar (n % 10) (Nat.mod_lt _ (by decide))
      rw [Nat.toDigits_of_base_le (by decide) (by omega), List.foldlM_append]
      show (decimal (n / 10)).foldlM _ _ >>= _ = _
      rw [ih (n / 10) (by omega) (by omega)]
      have hnext : Json.NumberState.integer.next (Nat.digitChar (n % 10)) = some .integer :=
        if_pos hdigit
      show (Json.NumberState.integer.next (Nat.digitChar (n % 10)) >>= pure) = _
      rw [hnext]
      rfl

theorem isNumber_decimal (n : Nat) : Json.isNumber (decimal n) = true := by
  unfold Json.isNumber
  rcases Nat.eq_zero_or_pos n with rfl | hn
  · rfl
  · rw [foldlM_next_decimal hn]
    rfl

/-! ## Integers -/

def integerText (n : Int) : Text := if n < 0 then '-' :: decimal n.natAbs else decimal n.natAbs

/-- A decimal starts with a digit. -/
theorem decimal_eq_cons (n : Nat) : ∃ c s, decimal n = c :: s ∧ c.isDigit = true := by
  obtain ⟨c, s, hs⟩ := List.exists_cons_of_ne_nil (decimal_ne_nil n)
  exact ⟨c, s, hs, isDigit_of_mem_decimal (hs ▸ List.mem_cons_self)⟩

theorem isNumber_integerText (n : Int) : Json.isNumber (integerText n) = true := by
  unfold integerText
  split
  · obtain ⟨c, s, hs, hc⟩ := decimal_eq_cons n.natAbs
    have hne : c ≠ '-' := by
      rintro rfl
      exact absurd hc (by decide)
    have hnext : Json.NumberState.minus.next c = Json.NumberState.start.next c := by
      show _ = if c = '-' then _ else _
      rw [if_neg hne]
      rfl
    rw [← isNumber_decimal n.natAbs, hs]
    show ((Json.NumberState.minus.next c).bind fun state =>
      s.foldlM Json.NumberState.next state).any _ = _
    rw [hnext]
    rfl
  · exact isNumber_decimal n.natAbs

/-- The integer that a text may spell. -/
def spelledInteger (s : Text) : Int :=
  if s.head? = some '-' then -(Nat.ofDigitChars 10 s.tail 0 : Nat)
  else (Nat.ofDigitChars 10 s 0 : Nat)

def parseInteger (s : Text) : Option Int :=
  if integerText (spelledInteger s) = s then some (spelledInteger s) else none

theorem spelledInteger_integerText (n : Int) : spelledInteger (integerText n) = n := by
  have hvalue : Nat.ofDigitChars 10 (decimal n.natAbs) 0 = n.natAbs := Nat.ofDigitChars_ten_toDigits
  unfold integerText spelledInteger
  split
  · rw [if_pos List.head?_cons, List.tail_cons, hvalue]
    omega
  · obtain ⟨c, s, hs, hc⟩ := decimal_eq_cons n.natAbs
    have hne : (decimal n.natAbs).head? ≠ some '-' := by
      rw [hs, List.head?_cons]
      intro h
      rw [Option.some.inj h] at hc
      exact absurd hc (by decide)
    rw [if_neg hne, hvalue]
    omega

theorem parseInteger_eq_some_iff {s : Text} {n : Int} :
    parseInteger s = some n ↔ s = integerText n := by
  unfold parseInteger
  constructor
  · intro h
    obtain ⟨htext, hn⟩ := Option.ite_none_right_eq_some.mp h
    rw [← Option.some.inj hn]
    exact htext.symm
  · rintro rfl
    rw [spelledInteger_integerText, if_pos rfl]

end Lib
