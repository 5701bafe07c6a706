import Fusen.Lib.Grammar
import Fusen.Wire.UriReference

/-!
# The grammar of URI references

The rules of RFC 3986, appendix A, each as it is written there, and the checkers of
components and paths against them.
-/

namespace Fusen.Wire

open Lib RegularExpression

namespace Uri

/-! ## Characters -/

def ALPHA : RegularExpression Char :=
  anyOf "ABCDEFGHIJKLMNOPQRSTUVWXYZabcdefghijklmnopqrstuvwxyz".toList

def DIGIT : RegularExpression Char := anyOf "0123456789".toList

def HEXDIG : RegularExpression Char := anyOf "0123456789ABCDEFabcdef".toList

def unreserved : RegularExpression Char := ALPHA + DIGIT + anyOf "-._~".toList

def subDelims : RegularExpression Char := anyOf "!$&'()*+,;=".toList

def pctEncoded : RegularExpression Char := char '%' * (HEXDIG * HEXDIG)

def pchar : RegularExpression Char :=
  unreserved + pctEncoded + subDelims + char ':' + char '@'

/-! ## Paths, queries and fragments -/

def segment : RegularExpression Char := pchar.star

def segmentNz : RegularExpression Char := many1 pchar

def segmentNzNc : RegularExpression Char := many1 (unreserved + pctEncoded + subDelims + char '@')

def pathAbempty : RegularExpression Char := (char '/' * segment).star

def pathAbsolute : RegularExpression Char :=
  char '/' * opt (segmentNz * (char '/' * segment).star)

def pathNoscheme : RegularExpression Char := segmentNzNc * (char '/' * segment).star

def pathRootless : RegularExpression Char := segmentNz * (char '/' * segment).star

def pathEmpty : RegularExpression Char := 1

def query : RegularExpression Char := (pchar + char '/' + char '?').star

def fragment : RegularExpression Char := (pchar + char '/' + char '?').star

/-! ## Authorities -/

def decOctet : RegularExpression Char :=
  DIGIT + anyOf "123456789".toList * DIGIT + char '1' * DIGIT ^ 2 +
    char '2' * anyOf "01234".toList * DIGIT + textRule "25".toList * anyOf "012345".toList

def ipv4Address : RegularExpression Char :=
  decOctet * char '.' * decOctet * char '.' * decOctet * char '.' * decOctet

def h16 : RegularExpression Char := HEXDIG * upTo 3 HEXDIG

def ls32 : RegularExpression Char := h16 * char ':' * h16 + ipv4Address

/-- `h16 ":"` -/
def h16Colon : RegularExpression Char := h16 * char ':'

def doubleColon : RegularExpression Char := textRule "::".toList

def ipv6Address : RegularExpression Char :=
  h16Colon ^ 6 * ls32 +
  doubleColon * h16Colon ^ 5 * ls32 +
  opt h16 * doubleColon * h16Colon ^ 4 * ls32 +
  opt (upTo 1 h16Colon * h16) * doubleColon * h16Colon ^ 3 * ls32 +
  opt (upTo 2 h16Colon * h16) * doubleColon * h16Colon ^ 2 * ls32 +
  opt (upTo 3 h16Colon * h16) * doubleColon * h16Colon * ls32 +
  opt (upTo 4 h16Colon * h16) * doubleColon * ls32 +
  opt (upTo 5 h16Colon * h16) * doubleColon * h16 +
  opt (upTo 6 h16Colon * h16) * doubleColon

def ipvFuture : RegularExpression Char :=
  anyOf "vV".toList * (many1 HEXDIG * (char '.' * many1 (unreserved + subDelims + char ':')))

def ipLiteral : RegularExpression Char := char '[' * ((ipv6Address + ipvFuture) * char ']')

def regName : RegularExpression Char := (unreserved + pctEncoded + subDelims).star

def host : RegularExpression Char := ipLiteral + ipv4Address + regName

def port : RegularExpression Char := DIGIT.star

def userinfo : RegularExpression Char := (unreserved + pctEncoded + subDelims + char ':').star

def authority : RegularExpression Char :=
  opt (userinfo * char '@') * (host * opt (char ':' * port))

/-! ## References -/

def hierPart : RegularExpression Char :=
  textRule "//".toList * (authority * pathAbempty) + pathAbsolute + pathRootless + pathEmpty

def relativePart : RegularExpression Char :=
  textRule "//".toList * (authority * pathAbempty) + pathAbsolute + pathNoscheme + pathEmpty

def scheme : RegularExpression Char := ALPHA * (ALPHA + DIGIT + anyOf "+-.".toList).star

def uri : RegularExpression Char :=
  scheme * (char ':' * hierPart) * opt (char '?' * query) * opt (char '#' * fragment)

def relativeRef : RegularExpression Char :=
  relativePart * opt (char '?' * query) * opt (char '#' * fragment)

def uriReference : RegularExpression Char := uri + relativeRef

/-! ## Character classes -/

/-- A test for ASCII characters is the list of those that pass. -/
theorem mem_iff_of_ascii {allowed : Char → Bool} {cs : List Char}
    (hascii : ∀ c, allowed c = true → c.toNat < 128)
    (htable : (List.range 128).filter (fun n => allowed (Char.ofNat n)) = cs.map Char.toNat)
    (c : Char) : c ∈ cs ↔ allowed c = true := by
  have hinj : Function.Injective Char.toNat := fun _ _ h => Char.toNat_inj.mp h
  rw [← List.mem_map_of_injective hinj, ← htable, List.mem_filter, List.mem_range,
    Char.ofNat_toNat]
  exact and_iff_right_of_imp (hascii c)

theorem toNat_lt_of_isAlphanum {c : Char} (h : c.isAlphanum = true) : c.toNat < 128 := by
  have := toNat_of_isAlphanum h
  omega

theorem toNat_lt_of_isHexDigit {c : Char} (h : isHexDigit c = true) : c.toNat < 128 := by
  simp only [isHexDigit, Bool.or_eq_true, Bool.and_eq_true, decide_eq_true_eq] at h
  rcases h with (h | ⟨-, h⟩) | ⟨-, h⟩
  · exact toNat_lt_of_isAlphanum (by simp [Char.isAlphanum, h])
  · exact Nat.lt_of_le_of_lt (UInt32.le_iff_toNat_le.mp h) (by decide)
  · exact Nat.lt_of_le_of_lt (UInt32.le_iff_toNat_le.mp h) (by decide)

/-- A rule for one character of a class. -/
def IsClass (allowed : Char → Bool) (r : RegularExpression Char) : Prop :=
  ∀ s, Derives r s ↔ ∃ c, allowed c = true ∧ s = [c]

/-- A rule for one character of a class, or for a percent triplet. -/
def IsUnit (allowed : Char → Bool) (r : RegularExpression Char) : Prop :=
  ∀ s, Derives r s ↔ (∃ c, allowed c = true ∧ s = [c]) ∨ Derives pctEncoded s

theorem isClass_anyOf {allowed : Char → Bool} {cs : List Char}
    (h : ∀ c, c ∈ cs ↔ allowed c = true) : IsClass allowed (anyOf cs) := by
  intro s
  rw [derives_anyOf]
  exact exists_congr fun c => and_congr_left fun _ => h c

theorem isClass_char (d : Char) : IsClass (· == d) (char d) := by
  intro s
  simp

theorem IsClass.add {allowed allowed' : Char → Bool} {r r' : RegularExpression Char}
    (h : IsClass allowed r) (h' : IsClass allowed' r') :
    IsClass (fun c => allowed c || allowed' c) (r + r') := by
  intro s
  simp only [derives_add, h s, h' s, Bool.or_eq_true, or_and_right, exists_or]

theorem IsClass.unit {allowed : Char → Bool} {r : RegularExpression Char}
    (h : IsClass allowed r) : IsUnit allowed (r + pctEncoded) := by
  intro s
  rw [derives_add, h s]

theorem IsUnit.add {allowed allowed' : Char → Bool} {r r' : RegularExpression Char}
    (h : IsUnit allowed r) (h' : IsClass allowed' r') :
    IsUnit (fun c => allowed c || allowed' c) (r + r') := by
  intro s
  simp only [derives_add, h s, h' s, Bool.or_eq_true, or_and_right, exists_or, or_right_comm]

theorem isClass_ALPHA : IsClass Char.isAlpha ALPHA :=
  isClass_anyOf (mem_iff_of_ascii
    (fun c h => toNat_lt_of_isAlphanum (by simp [Char.isAlphanum, h]))
    (by decide))

theorem isClass_DIGIT : IsClass Char.isDigit DIGIT :=
  isClass_anyOf (mem_iff_of_ascii
    (fun c h => toNat_lt_of_isAlphanum (by simp [Char.isAlphanum, h]))
    (by decide))

theorem isClass_HEXDIG : IsClass isHexDigit HEXDIG :=
  isClass_anyOf (mem_iff_of_ascii (fun _ => toNat_lt_of_isHexDigit)
    (by decide))

theorem isClass_alphanum : IsClass Char.isAlphanum (ALPHA + DIGIT) :=
  IsClass.add isClass_ALPHA isClass_DIGIT

theorem isClass_contains (cs : List Char) : IsClass cs.contains (anyOf cs) :=
  isClass_anyOf fun _ => List.contains_iff_mem.symm

theorem isClass_unreserved : IsClass isUnreserved unreserved :=
  IsClass.add isClass_alphanum (isClass_contains _)

theorem isClass_subDelims : IsClass isSubDelim subDelims := isClass_contains _

theorem isUnit_regNameChar : IsUnit isRegNameChar (unreserved + pctEncoded + subDelims) :=
  IsUnit.add (IsClass.unit isClass_unreserved) isClass_subDelims

theorem isUnit_userinfoChar :
    IsUnit isUserinfoChar (unreserved + pctEncoded + subDelims + char ':') :=
  IsUnit.add isUnit_regNameChar (isClass_char ':')

theorem isUnit_pchar : IsUnit isPchar pchar :=
  IsUnit.add isUnit_userinfoChar (isClass_char '@')

theorem isUnit_queryChar : IsUnit isQueryChar (pchar + char '/' + char '?') :=
  IsUnit.add (IsUnit.add isUnit_pchar (isClass_char '/')) (isClass_char '?')

/-! ## Components -/

theorem derives_pctEncoded {s : Text} : Derives pctEncoded s ↔
    ∃ a b, isHexDigit a = true ∧ isHexDigit b = true ∧ s = ['%', a, b] := by
  rw [pctEncoded, derives_char_mul]
  constructor
  · rintro ⟨t, ht, rfl⟩
    obtain ⟨x, y, hx, hy, rfl⟩ := derives_mul.mp ht
    obtain ⟨a, ha, rfl⟩ := (isClass_HEXDIG _).mp hx
    obtain ⟨b, hb, rfl⟩ := (isClass_HEXDIG _).mp hy
    exact ⟨a, b, ha, hb, rfl⟩
  · rintro ⟨a, b, ha, hb, rfl⟩
    exact ⟨[a, b], derives_mul.mpr ⟨[a], [b], (isClass_HEXDIG _).mpr ⟨a, ha, rfl⟩,
      (isClass_HEXDIG _).mpr ⟨b, hb, rfl⟩, rfl⟩, rfl⟩

section Unit

variable {allowed : Char → Bool} {r : RegularExpression Char}

theorem validUriComponent_cons {c : Char} {s : Text} (hc : c ≠ '%') :
    validUriComponent allowed (c :: s) = (allowed c && validUriComponent allowed s) := by
  rw [validUriComponent.eq_4] <;> simp_all

/-- A unit in front changes nothing. -/
theorem validUriComponent_append (h : IsUnit allowed r) (hpct : allowed '%' = false) {p : Text}
    (hp : Derives r p) (s : Text) :
    validUriComponent allowed (p ++ s) = validUriComponent allowed s := by
  rcases (h p).mp hp with ⟨c, hc, rfl⟩ | hp
  · have hne : c ≠ '%' := by
      rintro rfl
      rw [hpct] at hc
      cases hc
    show validUriComponent allowed (c :: s) = _
    rw [validUriComponent_cons hne, hc, Bool.true_and]
  · obtain ⟨a, b, ha, hb, rfl⟩ := (derives_pctEncoded).mp hp
    show validUriComponent allowed ('%' :: a :: b :: s) = _
    rw [validUriComponent, ha, hb, Bool.true_and, Bool.true_and]

/-- **A component is any number of units.** -/
theorem validUriComponent_iff (h : IsUnit allowed r) (hpct : allowed '%' = false) (s : Text) :
    validUriComponent allowed s = true ↔ Derives r.star s := by
  rw [derives_star]
  constructor
  · intro hs
    induction s using validUriComponent.induct with
    | case1 => exact ⟨[], rfl, nofun⟩
    | case2 a b s ih =>
      rw [validUriComponent, Bool.and_eq_true, Bool.and_eq_true] at hs
      obtain ⟨parts, rfl, hparts⟩ := ih hs.2
      refine ⟨['%', a, b] :: parts, rfl, List.forall_mem_cons.mpr ⟨?_, hparts⟩⟩
      exact (h _).mpr (Or.inr ((derives_pctEncoded).mpr ⟨a, b, hs.1.1, hs.1.2, rfl⟩))
    | case3 s hshort =>
      rw [validUriComponent.eq_3 _ _ hshort] at hs
      cases hs
    | case4 c s _ hne ih =>
      rw [validUriComponent_cons hne, Bool.and_eq_true] at hs
      obtain ⟨parts, rfl, hparts⟩ := ih hs.2
      refine ⟨[c] :: parts, rfl, List.forall_mem_cons.mpr ⟨?_, hparts⟩⟩
      exact (h _).mpr (Or.inl ⟨c, hs.1, rfl⟩)
  · rintro ⟨parts, rfl, hparts⟩
    induction parts with
    | nil => rfl
    | cons p parts ih =>
      rw [List.forall_mem_cons] at hparts
      rw [List.flatten_cons, validUriComponent_append h hpct hparts.1]
      exact ih hparts.2

theorem IsUnit.ne_nil (h : IsUnit allowed r) {p : Text} (hp : Derives r p) : p ≠ [] := by
  rcases (h p).mp hp with ⟨c, -, rfl⟩ | hp
  · exact List.cons_ne_nil _ _
  · obtain ⟨a, b, -, -, rfl⟩ := (derives_pctEncoded).mp hp
    exact List.cons_ne_nil _ _

theorem derives_many1_unit (h : IsUnit allowed r) (hpct : allowed '%' = false) (s : Text) :
    Derives (many1 r) s ↔ s ≠ [] ∧ validUriComponent allowed s = true := by
  rw [derives_many1, validUriComponent_iff h hpct, derives_star]
  constructor
  · rintro ⟨p, parts, hp, hparts, rfl⟩
    refine ⟨fun hnil => h.ne_nil hp (List.append_eq_nil_iff.mp hnil).1, p :: parts, rfl, ?_⟩
    exact List.forall_mem_cons.mpr ⟨hp, hparts⟩
  · rintro ⟨hne, parts, rfl, hparts⟩
    cases parts with
    | nil => exact absurd rfl hne
    | cons p parts =>
      rw [List.forall_mem_cons] at hparts
      exact ⟨p, parts, hparts.1, hparts.2, rfl⟩

end Unit

/-! ## Paths -/

theorem validUriComponent_pchar_iff (s : Text) :
    validUriComponent isPchar s = true ↔ Derives segment s :=
  validUriComponent_iff isUnit_pchar (by decide) s

/-- No segment has a slash. -/
theorem avoids_segment : avoids '/' segment = true ∧ avoids '/' pchar = true ∧
    avoids '/' (unreserved + pctEncoded + subDelims + char '@') = true := by
  decide

theorem slash_notMem_segment {s : Text} (h : validUriComponent isPchar s = true) : '/' ∉ s := by
  obtain ⟨hslash, -⟩ := avoids_segment
  exact notMem_of_avoids hslash ((validUriComponent_pchar_iff s).mp h)

theorem derives_slashes {s : Text} : Derives (char '/' * segment).star s ↔
    ∃ parts : List Text, (∀ p ∈ parts, validUriComponent isPchar p = true) ∧
      s = parts.flatMap ('/' :: ·) := by
  rw [derives_star]
  constructor
  · rintro ⟨parts, rfl, hparts⟩
    refine ⟨parts.map List.tail, ?_, ?_⟩
    · intro p hp
      obtain ⟨q, hq, rfl⟩ := List.mem_map.mp hp
      obtain ⟨t, ht, rfl⟩ := derives_char_mul.mp (hparts q hq)
      exact (validUriComponent_pchar_iff t).mpr ht
    · rw [List.flatMap_map, List.flatMap_def]
      congr 1
      refine (List.map_id _).symm.trans (List.map_congr_left fun q hq => ?_)
      obtain ⟨t, -, rfl⟩ := derives_char_mul.mp (hparts q hq)
      rfl
  · rintro ⟨parts, hparts, rfl⟩
    refine ⟨parts.map ('/' :: ·), rfl, ?_⟩
    intro p hp
    obtain ⟨q, hq, rfl⟩ := List.mem_map.mp hp
    exact derives_char_mul.mpr ⟨q, (validUriComponent_pchar_iff q).mp (hparts q hq), rfl⟩

theorem splitOn_slash_cons (s : Text) : ('/' :: s).splitOn '/' = [] :: s.splitOn '/' := by
  rw [List.splitOn_cons_eq_if_modifyHead, if_pos (by simp)]

theorem isValidAbemptyPath_iff (s : Text) :
    isValidAbemptyPath s = true ↔ Derives pathAbempty s := by
  unfold isValidAbemptyPath
  rw [pathAbempty, derives_slashes]
  cases s with
  | nil => exact iff_of_true (by decide) ⟨[], nofun, rfl⟩
  | cons c t =>
    simp only [List.isEmpty_cons, List.head?_cons, Bool.false_or, List.tail_cons, Bool.and_eq_true,
      List.all_eq_true, beq_iff_eq, Option.some.injEq]
    constructor
    · rintro ⟨rfl, hall⟩
      exact ⟨t.splitOn '/', hall, (flatMap_splitOn '/' t).symm⟩
    · rintro ⟨parts, hparts, heq⟩
      have hslash : ∀ p ∈ parts, '/' ∉ p := fun p hp => slash_notMem_segment (hparts p hp)
      have hhead : c = '/' := by
        cases parts with
        | nil => cases heq
        | cons p parts => exact (List.cons.inj heq).1
      subst hhead
      have hsplit := splitOn_flatMap_cons hslash
      rw [← heq, splitOn_slash_cons] at hsplit
      rw [(List.cons.inj hsplit).2]
      exact ⟨rfl, hparts⟩

/-- A first segment of its own kind, and more segments. -/
theorem firstSegment_iff {allowed : Char → Bool} {r : RegularExpression Char}
    (h : IsUnit allowed r) (hpct : allowed '%' = false) (hslash : avoids '/' r = true) (s : Text) :
    (match s.splitOn '/' with
      | first :: segments => !first.isEmpty && validUriComponent allowed first &&
          segments.all (validUriComponent isPchar)
      | [] => false) = true ↔ Derives (many1 r * (char '/' * segment).star) s := by
  have hfirst {p : Text} (hp : Derives (many1 r) p) : '/' ∉ p :=
    notMem_of_avoids (by simpa [many1, avoids, usesOnly] using hslash) hp
  rw [derives_mul]
  constructor
  · intro hs
    split at hs
    · rename_i first segments hsplit
      simp only [Bool.and_eq_true, Bool.not_eq_true', List.isEmpty_eq_false_iff,
        List.all_eq_true] at hs
      refine ⟨first, segments.flatMap ('/' :: ·), (derives_many1_unit h hpct first).mpr hs.1,
        (derives_slashes).mpr ⟨segments, hs.2, rfl⟩, ?_⟩
      have hflat := flatMap_splitOn '/' s
      rw [hsplit] at hflat
      exact (List.cons.inj hflat).2.symm
    · cases hs
  · rintro ⟨first, rest, hp, hrest, rfl⟩
    obtain ⟨parts, hparts, rfl⟩ := (derives_slashes).mp hrest
    rw [splitOn_append_flatMap_cons (hfirst hp) fun p hp => slash_notMem_segment (hparts p hp)]
    simp only [Bool.and_eq_true, Bool.not_eq_true', List.isEmpty_eq_false_iff, List.all_eq_true]
    exact ⟨(derives_many1_unit h hpct first).mp hp, hparts⟩

theorem isUnit_pcharNc :
    IsUnit (fun c => isPchar c && (false || c != ':'))
      (unreserved + pctEncoded + subDelims + char '@') := by
  have h := IsUnit.add isUnit_regNameChar (isClass_char '@')
  have hclass : (fun c => isRegNameChar c || c == '@') =
      fun c => isPchar c && (false || c != ':') := by
    funext c
    by_cases hc : c = ':'
    · subst hc
      decide
    · have hcolon : (c == ':') = false := beq_false_of_ne hc
      simp [isPchar, isRegNameChar, bne, hcolon]
  rwa [hclass] at h

theorem isValidRootlessPath_iff (s : Text) :
    isValidRootlessPath s true = true ↔ Derives pathRootless s := by
  have hclass : isPchar = fun c => isPchar c && (true || c != ':') := by
    funext c
    simp
  obtain ⟨-, hslash, -⟩ := avoids_segment
  exact firstSegment_iff (hclass ▸ isUnit_pchar) (by decide) hslash s

theorem isValidNoschemePath_iff (s : Text) :
    isValidRootlessPath s false = true ↔ Derives pathNoscheme s := by
  obtain ⟨-, -, hslash⟩ := avoids_segment
  exact firstSegment_iff isUnit_pcharNc (by decide) hslash s

theorem isValidAbsolutePath_iff (s : Text) :
    isValidAbsolutePath s = true ↔ Derives pathAbsolute s := by
  rw [pathAbsolute, derives_char_mul]
  cases s with
  | nil => exact iff_of_false nofun fun ⟨t, _, ht⟩ => nomatch ht
  | cons c path =>
    by_cases hc : c = '/'
    · subst hc
      obtain ⟨-, hslash, -⟩ := avoids_segment
      have hpath := firstSegment_iff isUnit_pchar (by decide) hslash path
      have hright : (∃ t, Derives (opt (segmentNz * (char '/' * segment).star)) t ∧
          '/' :: path = '/' :: t) ↔
            path = [] ∨ Derives (segmentNz * (char '/' * segment).star) path := by
        rw [← derives_opt]
        constructor
        · rintro ⟨t, ht, heq⟩
          rwa [(List.cons.inj heq).2]
        · intro ht
          exact ⟨path, ht, rfl⟩
      unfold isValidAbsolutePath
      rw [hright]
      show (path.isEmpty || _) = true ↔ _
      rw [Bool.or_eq_true, List.isEmpty_iff]
      exact or_congr Iff.rfl hpath
    · refine iff_of_false ?_ fun ⟨t, _, ht⟩ => hc (List.cons.inj ht).1
      unfold isValidAbsolutePath
      simp [hc]

theorem isValidRootlessPath_slash (s : Text) (colon : Bool) :
    isValidRootlessPath ('/' :: s) colon = false := by
  unfold isValidRootlessPath
  rw [splitOn_slash_cons]
  rfl

theorem isValidAbsolutePath_slashes (s : Text) : isValidAbsolutePath ('/' :: '/' :: s) = false := by
  rw [isValidAbsolutePath.eq_1, splitOn_slash_cons]
  rfl

theorem isValidAbsolutePath_ne_slash {c : Char} {s : Text} (h : c ≠ '/') :
    isValidAbsolutePath (c :: s) = false := by
  unfold isValidAbsolutePath
  simp [h]

end Uri

end Fusen.Wire
