import Mathlib.Computability.RegularExpressions

/-!
# Rules of a regular grammar

A grammar whose rules do not refer to themselves is a regular expression.  `Derives r s`
says that `s` derives from the rule `r`; the operators of ABNF that regular expressions do
not have are definitions over them.
-/

namespace Lib

open RegularExpression

variable {α : Type*}

def Derives (r : RegularExpression α) (s : List α) : Prop := s ∈ r.matches'

instance [DecidableEq α] (r : RegularExpression α) (s : List α) : Decidable (Derives r s) :=
  decidable_of_iff _ (rmatch_iff_matches' r s)

/-! ## Operators -/

/-- One of the characters. -/
def anyOf (cs : List α) : RegularExpression α := (cs.map char).sum

/-- The characters one after the other. -/
def textRule (cs : List α) : RegularExpression α := (cs.map char).prod

/-- `[ r ]` -/
def opt (r : RegularExpression α) : RegularExpression α := 1 + r

/-- `1*r` -/
def many1 (r : RegularExpression α) : RegularExpression α := r * r.star

/-- `*n r` -/
def upTo (n : Nat) (r : RegularExpression α) : RegularExpression α := opt r ^ n

variable {p q r : RegularExpression α} {s : List α} {cs : List α} {c : α}

@[simp] theorem derives_zero : ¬ Derives (0 : RegularExpression α) s := fun h => nomatch h

@[simp] theorem derives_one : Derives (1 : RegularExpression α) s ↔ s = [] := Language.mem_one s

@[simp] theorem derives_char : Derives (char c) s ↔ s = [c] := Iff.rfl

@[simp] theorem derives_add : Derives (p + q) s ↔ Derives p s ∨ Derives q s := Iff.rfl

theorem derives_mul : Derives (p * q) s ↔ ∃ a b, Derives p a ∧ Derives q b ∧ s = a ++ b := by
  unfold Derives
  rw [matches'_mul, Language.mem_mul]
  constructor
  · rintro ⟨a, ha, b, hb, rfl⟩
    exact ⟨a, b, ha, hb, rfl⟩
  · rintro ⟨a, b, ha, hb, rfl⟩
    exact ⟨a, ha, b, hb, rfl⟩

theorem derives_char_mul : Derives (char c * r) s ↔ ∃ t, Derives r t ∧ s = c :: t := by
  rw [derives_mul]
  constructor
  · rintro ⟨a, b, ha, hb, rfl⟩
    rw [derives_char.mp ha]
    exact ⟨b, hb, rfl⟩
  · rintro ⟨t, ht, rfl⟩
    exact ⟨[c], t, derives_char.mpr rfl, ht, rfl⟩

theorem derives_star : Derives r.star s ↔
    ∃ parts : List (List α), s = parts.flatten ∧ ∀ p ∈ parts, Derives r p := by
  unfold Derives
  rw [matches'_star, Language.mem_kstar]

@[simp] theorem derives_opt : Derives (opt r) s ↔ s = [] ∨ Derives r s := by
  rw [opt, derives_add, derives_one]

@[simp] theorem derives_anyOf : Derives (anyOf cs) s ↔ ∃ c ∈ cs, s = [c] := by
  induction cs with
  | nil => simp [anyOf]
  | cons c cs ih =>
    show Derives (char c + anyOf cs) s ↔ _
    rw [derives_add, ih, derives_char]
    simp

@[simp] theorem derives_textRule : Derives (textRule cs) s ↔ s = cs := by
  induction cs generalizing s with
  | nil => exact derives_one
  | cons c cs ih =>
    show Derives (char c * textRule cs) s ↔ _
    rw [derives_char_mul]
    simp only [ih]
    exact ⟨fun ⟨t, ht, hs⟩ => ht ▸ hs, fun hs => ⟨cs, rfl, hs⟩⟩

theorem derives_many1 : Derives (many1 r) s ↔
    ∃ (p : List α) (parts : List (List α)), Derives r p ∧ (∀ q ∈ parts, Derives r q) ∧ s = p ++ parts.flatten := by
  rw [many1, derives_mul]
  constructor
  · rintro ⟨a, b, ha, hb, rfl⟩
    obtain ⟨parts, rfl, hparts⟩ := (derives_star).mp hb
    exact ⟨a, parts, ha, hparts, rfl⟩
  · rintro ⟨p, parts, hp, hparts, rfl⟩
    exact ⟨p, _, hp, (derives_star).mpr ⟨parts, rfl, hparts⟩, rfl⟩

/-! ## The characters of a rule -/

/-- All characters in the rule pass the test. -/
def usesOnly (allowed : α → Bool) : RegularExpression α → Bool
  | zero | epsilon => true
  | char d => allowed d
  | plus p q | comp p q => usesOnly allowed p && usesOnly allowed q
  | RegularExpression.star r => usesOnly allowed r

def avoids [DecidableEq α] (c : α) : RegularExpression α → Bool := usesOnly fun d => c ≠ d

theorem forall_mem_of_usesOnly {allowed : α → Bool} (h : usesOnly allowed r = true)
    (hs : Derives r s) : ∀ c ∈ s, allowed c = true := by
  induction r generalizing s with
  | zero => exact absurd hs derives_zero
  | epsilon =>
    rw [show s = [] from hs]
    nofun
  | char d =>
    rw [derives_char.mp hs]
    simpa [usesOnly] using h
  | plus p q hp hq =>
    rw [usesOnly, Bool.and_eq_true] at h
    exact (derives_add.mp hs).elim (hp h.1) (hq h.2)
  | comp p q hp hq =>
    rw [usesOnly, Bool.and_eq_true] at h
    obtain ⟨a, b, ha, hb, rfl⟩ := (derives_mul).mp hs
    intro c hc
    exact (List.mem_append.mp hc).elim (hp h.1 ha c) (hq h.2 hb c)
  | star r ih =>
    obtain ⟨parts, rfl, hparts⟩ := (derives_star).mp hs
    intro c hc
    obtain ⟨part, hpart, hc⟩ := List.mem_flatten.mp hc
    exact ih h (hparts part hpart) c hc

theorem notMem_of_avoids [DecidableEq α] (h : avoids c r = true) (hs : Derives r s) : c ∉ s :=
  fun hc => absurd rfl (of_decide_eq_true (forall_mem_of_usesOnly h hs c hc))

end Lib
