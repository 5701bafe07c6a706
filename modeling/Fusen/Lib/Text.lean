import Mathlib.Data.List.Basic
import Mathlib.Data.List.DropRight
import Mathlib.Data.List.Infix
import Mathlib.Tactic.Common

/-!
# Text as lists of characters

Splitting and joining are Mathlib's `List.splitOn` and `List.intercalate`.  Added
here are the UTF-8 bytes of a text, trimming, and `replaceAll`, which substitutes
every occurrence of a non-empty pattern from left to right without rescanning
what it put in.
-/

namespace Lib

abbrev Text := List Char

instance : LawfulBEq Text := inferInstance

/-! ## ASCII classes -/

section

variable {c : Char}

theorem isUpper_iff : c.isUpper = true ↔ 65 ≤ c.toNat ∧ c.toNat ≤ 90 := by
  show decide (65 ≤ c.val ∧ c.val ≤ 90) = true ↔ _
  rw [decide_eq_true_iff, UInt32.le_iff_toNat_le, UInt32.le_iff_toNat_le]
  rfl

theorem isLower_iff : c.isLower = true ↔ 97 ≤ c.toNat ∧ c.toNat ≤ 122 := by
  show (decide (97 ≤ c.val) && decide (c.val ≤ 122)) = true ↔ _
  rw [Bool.and_eq_true, decide_eq_true_iff, decide_eq_true_iff, UInt32.le_iff_toNat_le,
    UInt32.le_iff_toNat_le]
  rfl

theorem isDigit_iff : c.isDigit = true ↔ 48 ≤ c.toNat ∧ c.toNat ≤ 57 :=
  Char.isDigit_iff_toNat

theorem isAlpha_iff : c.isAlpha = true ↔ c.isUpper = true ∨ c.isLower = true := by
  show (c.isUpper || c.isLower) = true ↔ _
  rw [Bool.or_eq_true]

theorem isAlphanum_iff : c.isAlphanum = true ↔ c.isAlpha = true ∨ c.isDigit = true := by
  show (c.isAlpha || c.isDigit) = true ↔ _
  rw [Bool.or_eq_true]

theorem toNat_of_isAlphanum (h : c.isAlphanum = true) :
    48 ≤ c.toNat ∧ c.toNat ≤ 57 ∨ 65 ≤ c.toNat ∧ c.toNat ≤ 90 ∨ 97 ≤ c.toNat ∧ c.toNat ≤ 122 := by
  rw [isAlphanum_iff, isAlpha_iff, isUpper_iff, isLower_iff, isDigit_iff] at h
  omega

end

/-! ## UTF-8 -/

def utf8 (s : Text) : List UInt8 := s.flatMap String.utf8EncodeChar

def utf8Text (bs : List UInt8) : Option Text := (bs.toByteArray.utf8Decode?).map Array.toList

theorem utf8Text_utf8 (s : Text) : utf8Text (utf8 s) = some s := by
  have h : (utf8 s).toByteArray = s.utf8Encode := rfl
  rw [utf8Text, h, List.utf8Decode?_utf8Encode]
  rfl

theorem utf8_of_utf8Text {bs : List UInt8} {s : Text} (h : utf8Text bs = some s) : utf8 s = bs := by
  obtain ⟨a, ha, rfl⟩ := Option.map_eq_some_iff.mp h
  have hsome : bs.toByteArray.utf8Decode?.isSome := by simp [ha]
  have hget : bs.toByteArray.utf8Decode?.get hsome = a := by simp [ha]
  have henc := ByteArray.utf8Encode_get_utf8Decode? (b := bs.toByteArray) (h := hsome)
  rw [hget] at henc
  exact List.toByteArray_inj.mp henc

@[simp] theorem utf8_nil : utf8 [] = [] := rfl

theorem utf8_cons (c : Char) (s : Text) : utf8 (c :: s) = String.utf8EncodeChar c ++ utf8 s := rfl

theorem utf8_append (s t : Text) : utf8 (s ++ t) = utf8 s ++ utf8 t := by
  simp [utf8]

theorem utf8_inj {s t : Text} (h : utf8 s = utf8 t) : s = t := by
  have := congrArg utf8Text h
  simpa only [utf8Text_utf8, Option.some.injEq] using this

/-- A character below 128 is one byte, and the bytes of every other one are 128 or more. -/
theorem utf8EncodeChar_ascii (c : Char) (h : c.toNat < 128) :
    String.utf8EncodeChar c = [UInt8.ofNat c.toNat] := by
  have hle : c.val.toNat ≤ 0x7f := by
    have : c.val.toNat = c.toNat := rfl
    omega
  unfold String.utf8EncodeChar
  rw [if_pos hle]
  rfl

theorem le_of_mem_utf8EncodeChar (c : Char) (h : 128 ≤ c.toNat) :
    ∀ b ∈ String.utf8EncodeChar c, 128 ≤ b.toNat := by
  have hlt : ¬ c.val.toNat ≤ 0x7f := by
    have : c.val.toNat = c.toNat := rfl
    omega
  intro b hb
  unfold String.utf8EncodeChar at hb
  rw [if_neg hlt] at hb
  split at hb
  · simp only [List.mem_cons, List.not_mem_nil, or_false] at hb
    rcases hb with rfl | rfl <;> rw [UInt8.toNat_ofNat'] <;> omega
  · split at hb
    · simp only [List.mem_cons, List.not_mem_nil, or_false] at hb
      rcases hb with rfl | rfl | rfl <;> rw [UInt8.toNat_ofNat'] <;> omega
    · simp only [List.mem_cons, List.not_mem_nil, or_false] at hb
      rcases hb with rfl | rfl | rfl | rfl <;> rw [UInt8.toNat_ofNat'] <;> omega

/-! ## Trimming -/

def trimMatches (c : Char) (s : Text) : Text := (s.dropWhile (· == c)).rdropWhile (· == c)

/-- Trimming separators does not change the non-empty parts between them. -/
theorem filter_splitOn_trimMatches (c : Char) (s : Text) :
    ((trimMatches c s).splitOn c).filter (· ≠ []) = (s.splitOn c).filter (· ≠ []) := by
  have hstart : ∀ s : Text, ((s.dropWhile (· == c)).splitOn c).filter (· ≠ []) =
      (s.splitOn c).filter (· ≠ []) := by
    intro s
    induction s with
    | nil => rfl
    | cons d s ih =>
      rw [List.dropWhile_cons]
      split
      · rename_i h
        rw [ih, List.splitOn_cons_eq_if_modifyHead, if_pos h]
        simp
      · rfl
  have hend : ∀ s : Text, ((s.rdropWhile (· == c)).splitOn c).filter (· ≠ []) =
      (s.splitOn c).filter (· ≠ []) := by
    intro s
    induction s using List.reverseRecOn with
    | nil => rfl
    | append_singleton s d ih =>
      rw [List.rdropWhile_concat]
      split
      · rename_i h
        rw [ih, List.splitOn_append_cons_of_beq s [] h]
        simp
      · rfl
  rw [trimMatches, hend, hstart]

/-- Splits at the first separator. -/
def splitOnce (c : Char) : Text → Option (Text × Text)
  | [] => none
  | d :: s => if d = c then some ([], s) else (splitOnce c s).map fun x => (d :: x.1, x.2)

theorem splitOnce_append {c : Char} {s : Text} (h : c ∉ s) (t : Text) :
    splitOnce c (s ++ c :: t) = some (s, t) := by
  induction s with
  | nil => simp [splitOnce]
  | cons d s ih =>
    rw [List.mem_cons, not_or] at h
    rw [List.cons_append, splitOnce, if_neg (Ne.symm h.1), ih h.2]
    rfl

theorem splitOnce_eq_none {c : Char} {s : Text} (h : c ∉ s) : splitOnce c s = none := by
  induction s with
  | nil => rfl
  | cons d s ih =>
    rw [List.mem_cons, not_or] at h
    rw [splitOnce, if_neg (Ne.symm h.1), ih h.2]
    rfl

theorem splitOnce_eq_some_iff {c : Char} {s t u : Text} :
    splitOnce c s = some (t, u) ↔ s = t ++ c :: u ∧ c ∉ t := by
  constructor
  · intro h
    induction s generalizing t with
    | nil => cases h
    | cons d s ih =>
      unfold splitOnce at h
      split at h
      · rename_i hd
        cases h
        exact ⟨by rw [hd, List.nil_append], by simp⟩
      · rename_i hd
        obtain ⟨⟨t', u'⟩, hsplit, he⟩ := Option.map_eq_some_iff.mp h
        cases he
        obtain ⟨rfl, ht⟩ := ih hsplit
        refine ⟨rfl, ?_⟩
        rw [List.mem_cons, not_or]
        exact ⟨Ne.symm hd, ht⟩
  · rintro ⟨rfl, ht⟩
    exact splitOnce_append ht u

theorem append_cons_inj {c : Char} {s s' t t' : Text} (h : c ∉ s) (h' : c ∉ s')
    (he : s ++ c :: t = s' ++ c :: t') : s = s' ∧ t = t' := by
  have := congrArg (splitOnce c) he
  rw [splitOnce_append h, splitOnce_append h', Option.some.injEq, Prod.mk.injEq] at this
  exact this

/-! ## Separators that stand next to each other -/

/-- Some part behind the first separator is empty iff two separators meet or one ends the text. -/
theorem nil_mem_tail_splitOn_iff (c : Char) (s : Text) :
    [] ∈ (s.splitOn c).tail ↔ [c, c] <:+: s ∨ s.getLast? = some c := by
  induction s with
  | nil => simp
  | cons d s ih =>
    obtain ⟨x, xs, hx⟩ := List.exists_cons_of_ne_nil (List.splitOn_ne_nil c s)
    have hhead : x = [] ↔ s = [] ∨ s.head? = some c := by
      cases s with
      | nil =>
        simp only [List.splitOn_nil, List.cons.injEq] at hx
        simp [← hx.1]
      | cons e s =>
        rw [List.splitOn_cons_eq_if_modifyHead] at hx
        split at hx
        · rename_i he
          simp_all
        · rename_i he
          obtain ⟨y, ys, hy⟩ := List.exists_cons_of_ne_nil (List.splitOn_ne_nil c s)
          rw [hy] at hx
          simp only [List.modifyHead_cons, List.cons.injEq] at hx
          simp [← hx.1]
          simpa using he
    rw [List.splitOn_cons_eq_if_modifyHead]
    have hlast : (d :: s).getLast? = some c ↔ (s = [] ∧ d = c) ∨ s.getLast? = some c := by
      cases s <;> simp
    have hmiddle : [c, c] <:+: d :: s ↔ (d = c ∧ s.head? = some c) ∨ [c, c] <:+: s := by
      rw [List.infix_cons_iff, List.cons_prefix_cons, eq_comm (a := c)]
      cases s with
      | nil => simp
      | cons e s => rw [List.cons_prefix_cons, List.head?_cons, Option.some.injEq, eq_comm (a := c)]; simp
    rw [hx] at ih ⊢
    rw [hlast, hmiddle]
    by_cases hd : d = c
    · subst hd
      simp only [BEq.rfl, if_true, List.tail_cons, List.mem_cons, true_and]
      rw [eq_comm, hhead]
      simp only [List.tail_cons] at ih
      rw [ih]
      grind
    · have hd' : (d == c) = false := by simpa using hd
      simp only [hd', Bool.false_eq_true, if_false, List.modifyHead_cons, List.tail_cons, hd,
        false_and, and_false, false_or]
      simpa using ih

/-- A text that starts with a separator, has no two in a row and does not end in one, is that
separator before non-empty parts. -/
theorem nil_notMem_splitOn_of_canonical {c : Char} {s : Text} (h2 : ¬ [c, c] <:+: c :: s)
    (he : (c :: s).getLast? ≠ some c) : [] ∉ s.splitOn c := by
  have h := (nil_mem_tail_splitOn_iff c (c :: s)).not.mpr (by simp [h2, he])
  rw [List.splitOn_cons_eq_if_modifyHead] at h
  simpa using h

theorem splitOn_append_flatMap_cons {c : Char} {p : Text} {parts : List Text} (hp : c ∉ p)
    (h : ∀ q ∈ parts, c ∉ q) : (p ++ parts.flatMap (c :: ·)).splitOn c = p :: parts := by
  induction parts generalizing p with
  | nil => simpa using List.splitOn_eq_singleton hp
  | cons q parts ih =>
    rw [List.forall_mem_cons] at h
    rw [List.flatMap_cons, List.cons_append, List.splitOn_append_cons_self_of_not_mem hp, ih h.1 h.2]

theorem splitOn_flatMap_cons {c : Char} {parts : List Text} (h : ∀ p ∈ parts, c ∉ p) :
    (parts.flatMap (c :: ·)).splitOn c = [] :: parts := by
  simpa using splitOn_append_flatMap_cons (p := []) (by simp) h

theorem notMem_of_mem_splitOn {c : Char} {s p : Text} (h : p ∈ s.splitOn c) : c ∉ p := by
  induction s generalizing p with
  | nil => simp_all
  | cons d s ih =>
    obtain ⟨x, xs, hx⟩ := List.exists_cons_of_ne_nil (List.splitOn_ne_nil c s)
    rw [hx] at ih
    rw [List.splitOn_cons_eq_if_modifyHead, hx] at h
    split at h
    · rcases List.mem_cons.mp h with rfl | h
      · simp
      · exact ih h
    · rename_i hd
      rcases List.mem_cons.mp h with rfl | h
      · rw [List.mem_cons, not_or]
        exact ⟨fun hc => hd (by simp [hc]), ih (List.mem_cons_self ..)⟩
      · exact ih (List.mem_cons_of_mem _ h)

theorem flatMap_splitOn (c : Char) (s : Text) : (s.splitOn c).flatMap (c :: ·) = c :: s := by
  induction s with
  | nil => rfl
  | cons d s ih =>
    obtain ⟨x, xs, hx⟩ := List.exists_cons_of_ne_nil (List.splitOn_ne_nil c s)
    rw [hx, List.flatMap_cons, List.cons_append, List.cons.injEq] at ih
    rw [List.splitOn_cons_eq_if_modifyHead]
    split
    · rename_i h
      simp only [hx, List.flatMap_cons, List.cons_append, List.nil_append, ih.2, beq_iff_eq.mp h]
    · rw [hx, List.modifyHead_cons, List.flatMap_cons, List.cons_append, List.cons_append, ih.2]

/-! ## Parts behind separators -/

/-- The non-empty parts of a text, read as a separator before each. -/
def parts (c : Char) (s : Text) : List Text :=
  ((trimMatches c s).splitOn c).filter (· ≠ [])

def joinParts (c : Char) (ps : List Text) : Text :=
  if ps = [] then [c] else ps.flatMap (c :: ·)

theorem parts_eq (c : Char) (s : Text) : parts c s = (s.splitOn c).filter (· ≠ []) :=
  filter_splitOn_trimMatches c s

theorem mem_parts {c : Char} {s p : Text} (h : p ∈ parts c s) : p ≠ [] ∧ c ∉ p := by
  rw [parts_eq, List.mem_filter] at h
  exact ⟨by simpa using h.2, notMem_of_mem_splitOn h.1⟩

theorem splitOn_joinParts {c : Char} {ps : List Text} (h : ∀ p ∈ ps, c ∉ p) :
    (joinParts c ps).splitOn c = [] :: if ps = [] then [[]] else ps := by
  unfold joinParts
  split
  · simp [List.splitOn_cons_eq_if_modifyHead]
  · exact splitOn_flatMap_cons h

theorem parts_joinParts {c : Char} {ps : List Text} (h : ∀ p ∈ ps, p ≠ [] ∧ c ∉ p) :
    parts c (joinParts c ps) = ps := by
  rw [parts_eq, splitOn_joinParts fun p hp => (h p hp).2]
  by_cases hps : ps = []
  · simp [hps]
  · rw [if_neg hps, List.filter_cons_of_neg (by simp), List.filter_eq_self]
    intro p hp
    simpa using (h p hp).1

/-- A canonical text is the join of its parts. -/
theorem joinParts_parts {c : Char} {s : Text} (h2 : ¬ [c, c] <:+: c :: s)
    (he : s ≠ [] → (c :: s).getLast? ≠ some c) : joinParts c (parts c (c :: s)) = c :: s := by
  rw [parts_eq, List.splitOn_cons_eq_if_modifyHead, if_pos (by simp)]
  by_cases hs : s = []
  · subst hs
    rfl
  · have hne := nil_notMem_splitOn_of_canonical h2 (he hs)
    have hfilter : (s.splitOn c).filter (· ≠ []) = s.splitOn c := by
      rw [List.filter_eq_self]
      intro p hp
      rw [decide_eq_true_eq]
      rintro rfl
      exact hne hp
    rw [List.filter_cons_of_neg (by simp), hfilter, joinParts, if_neg (List.splitOn_ne_nil c s),
      flatMap_splitOn]

/-- Joined parts are canonical iff none is empty. -/
theorem nil_notMem_iff_canonical {c : Char} {ps : List Text} (h : ∀ p ∈ ps, c ∉ p) (hps : ps ≠ []) :
    [] ∉ ps ↔ ¬ [c, c] <:+: joinParts c ps ∧ (joinParts c ps).getLast? ≠ some c := by
  have hsplit := splitOn_joinParts h
  rw [if_neg hps] at hsplit
  have htail := nil_mem_tail_splitOn_iff c (joinParts c ps)
  rw [hsplit, List.tail_cons] at htail
  rw [htail, not_or]

theorem mem_joinParts {c d : Char} {ps : List Text} (h : d ∈ joinParts c ps) :
    d = c ∨ ∃ p ∈ ps, d ∈ p := by
  unfold joinParts at h
  split at h
  · exact .inl (List.mem_singleton.mp h)
  · obtain ⟨p, hp, hd⟩ := List.mem_flatMap.mp h
    rcases List.mem_cons.mp hd with rfl | hd
    · exact .inl rfl
    · exact .inr ⟨p, hp, hd⟩

theorem mem_joinParts_of_mem {c d : Char} {ps : List Text} {p : Text} (hp : p ∈ ps) (hd : d ∈ p) :
    d ∈ joinParts c ps := by
  unfold joinParts
  rw [if_neg (List.ne_nil_of_mem hp), List.mem_flatMap]
  exact ⟨p, hp, List.mem_cons_of_mem _ hd⟩

theorem head?_joinParts (c : Char) (ps : List Text) : (joinParts c ps).head? = some c := by
  cases ps with
  | nil => rfl
  | cons p ps => simp [joinParts]

theorem splitOn_tail_joinParts {c : Char} {ps : List Text} (h : ∀ p ∈ ps, c ∉ p) (hne : ps ≠ []) :
    (joinParts c ps).tail.splitOn c = ps := by
  have hsplit := splitOn_joinParts h
  obtain ⟨rest, hrest⟩ := List.head?_eq_some_iff.mp (head?_joinParts c ps)
  rw [if_neg hne, hrest, List.splitOn_cons_eq_if_modifyHead, if_pos (by simp)] at hsplit
  rw [hrest, List.tail_cons]
  exact (List.cons.inj hsplit).2

/-! ## Substitution -/

section Replace

variable {α : Type*} [DecidableEq α]

/-- `skip` symbols of the last occurrence are still to be passed over. -/
def replaceFrom (pattern new : List α) : Nat → List α → List α
  | _, [] => []
  | skip + 1, _ :: s => replaceFrom pattern new skip s
  | 0, c :: s =>
    if pattern <+: c :: s then new ++ replaceFrom pattern new (pattern.length - 1) s
    else c :: replaceFrom pattern new 0 s

def replaceAll (pattern new s : List α) : List α := replaceFrom pattern new 0 s

@[simp] theorem replaceAll_nil (pattern new : List α) : replaceAll pattern new [] = [] := by
  simp [replaceAll, replaceFrom]

theorem replaceFrom_drop (pattern new : List α) (n : Nat) (s : List α) :
    replaceFrom pattern new n s = replaceAll pattern new (s.drop n) := by
  induction n generalizing s with
  | zero => rfl
  | succ n ih =>
    cases s with
    | nil => simp [replaceFrom]
    | cons c s => rw [replaceFrom, ih, List.drop_succ_cons]

theorem replaceAll_pattern_append {pattern : List α} (hp : pattern ≠ []) (new s : List α) :
    replaceAll pattern new (pattern ++ s) = new ++ replaceAll pattern new s := by
  cases pattern with
  | nil => exact absurd rfl hp
  | cons c p =>
    rw [replaceAll, List.cons_append, replaceFrom, if_pos ⟨s, rfl⟩, replaceFrom_drop]
    simp

theorem replaceAll_cons_of_not_prefix {pattern : List α} (new : List α) {c : α} {s : List α}
    (h : ¬ pattern <+: c :: s) : replaceAll pattern new (c :: s) = c :: replaceAll pattern new s := by
  rw [replaceAll, replaceFrom, if_neg h]
  rfl

/-- Text without the pattern's first symbol is left alone. -/
theorem replaceAll_append_of_notMem {c : α} (p new : List α) {s : List α} (h : c ∉ s) (t : List α) :
    replaceAll (c :: p) new (s ++ t) = s ++ replaceAll (c :: p) new t := by
  induction s with
  | nil => rfl
  | cons d s ih =>
    rw [List.mem_cons, not_or] at h
    have hno : ¬ (c :: p) <+: d :: (s ++ t) := by
      rw [List.cons_prefix_cons]
      exact fun hp => h.1 hp.1
    rw [List.cons_append, replaceAll_cons_of_not_prefix new hno, ih h.2, List.cons_append]

/-- A template part: text without braces, or a name in braces. -/
def IsPiece (s : Text) : Prop :=
  '{' ∉ s ∨ ∃ name, s = '{' :: name ++ ['}'] ∧ '{' ∉ name ∧ '}' ∉ name

theorem replaceAll_piece {name new s : Text} (hname : '}' ∉ name) (hs : IsPiece s) (t : Text) :
    replaceAll ('{' :: name ++ ['}']) new (s ++ t) =
      (if s = '{' :: name ++ ['}'] then new else s) ++ replaceAll ('{' :: name ++ ['}']) new t := by
  by_cases he : s = '{' :: name ++ ['}']
  · rw [if_pos he, he]
    exact replaceAll_pattern_append (by simp) new t
  · rw [if_neg he]
    rcases hs with hs | ⟨other, rfl, hopen, hclose⟩
    · exact replaceAll_append_of_notMem _ new hs t
    · -- another placeholder: the names differ before the closing brace
      have hno : ¬ '{' :: name ++ ['}'] <+: '{' :: (other ++ '}' :: t) := by
        rintro ⟨u, hu⟩
        simp only [List.cons_append, List.append_assoc, List.nil_append, List.cons.injEq,
          true_and] at hu
        exact he (by rw [(append_cons_inj hname hclose hu).1])
      have hrest : '{' ∉ other ++ ['}'] := by simp [hopen]
      have hsplit : '{' :: other ++ ['}'] ++ t = '{' :: (other ++ '}' :: t) := by simp
      rw [hsplit, replaceAll_cons_of_not_prefix new hno]
      have := replaceAll_append_of_notMem (name ++ ['}']) new hrest t
      simp only [List.append_assoc, List.cons_append, List.nil_append] at this ⊢
      rw [this]

/-- Substitution in a joined template is substitution in its parts. -/
theorem replaceAll_joinParts {c : Char} {name new : Text} (hc : c ≠ '{') (hname : '}' ∉ name)
    {ps : List Text} (hps : ∀ p ∈ ps, IsPiece p) :
    replaceAll ('{' :: name ++ ['}']) new (joinParts c ps) =
      joinParts c (ps.map fun p => if p = '{' :: name ++ ['}'] then new else p) := by
  have hone : '{' ∉ [c] := by simpa using hc.symm
  have hflat : replaceAll ('{' :: name ++ ['}']) new (ps.flatMap (c :: ·)) =
      (ps.map fun p => if p = '{' :: name ++ ['}'] then new else p).flatMap (c :: ·) := by
    induction ps with
    | nil => simp
    | cons p ps ih =>
      rw [List.forall_mem_cons] at hps
      have hstep := replaceAll_append_of_notMem (name ++ ['}']) new hone
        (p ++ ps.flatMap (c :: ·))
      rw [List.map_cons, List.flatMap_cons, List.flatMap_cons, ← ih hps.2]
      simp only [List.cons_append, List.nil_append] at hstep ⊢
      rw [hstep]
      exact congrArg (c :: ·) (replaceAll_piece hname hps.1 _)
  unfold joinParts
  by_cases h : ps = []
  · subst h
    simp only [if_true, List.map_nil]
    have := replaceAll_append_of_notMem (name ++ ['}']) new hone []
    simpa using this
  · rw [if_neg h, if_neg (by simpa using h), hflat]

end Replace

end Lib
