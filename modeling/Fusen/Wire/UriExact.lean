import Fusen.Wire.UriGrammar

/-!
# The checker of URI references is exact

`isValidUriReference_iff`: it accepts what derives from the rule URI-reference and nothing
else, if the address parser it uses is exact.
-/

namespace Fusen.Wire

open Lib RegularExpression

namespace Uri

/-! ## Repetitions -/

/-- A repetition of one class. -/
theorem derives_star_class {allowed : Char → Bool} {r : RegularExpression Char}
    (h : IsClass allowed r) (s : Text) : Derives r.star s ↔ s.all allowed = true := by
  rw [derives_star, List.all_eq_true]
  constructor
  · rintro ⟨parts, rfl, hparts⟩ c hc
    obtain ⟨p, hp, hc⟩ := List.mem_flatten.mp hc
    obtain ⟨d, hd, rfl⟩ := (h p).mp (hparts p hp)
    rwa [List.mem_singleton.mp hc]
  · intro hall
    refine ⟨s.map fun c => [c], by simp [← List.flatMap_def], ?_⟩
    intro p hp
    obtain ⟨c, hc, rfl⟩ := List.mem_map.mp hp
    exact (h _).mpr ⟨c, hall c hc, rfl⟩

theorem derives_many1_class {allowed : Char → Bool} {r : RegularExpression Char}
    (h : IsClass allowed r) (s : Text) : Derives (many1 r) s ↔ s ≠ [] ∧ s.all allowed = true := by
  rw [many1, derives_mul]
  constructor
  · rintro ⟨a, b, ha, hb, rfl⟩
    obtain ⟨c, hc, rfl⟩ := (h a).mp ha
    refine ⟨List.cons_ne_nil _ _, ?_⟩
    rw [List.all_append, (derives_star_class h b).mp hb, List.all_cons, hc]
    rfl
  · rintro ⟨hne, hall⟩
    obtain ⟨c, t, rfl⟩ := List.exists_cons_of_ne_nil hne
    rw [List.all_cons, Bool.and_eq_true] at hall
    exact ⟨[c], t, (h _).mpr ⟨c, hall.1, rfl⟩, (derives_star_class h t).mpr hall.2, rfl⟩

theorem isPort_iff (s : Text) : isPort s = true ↔ Derives port s :=
  (derives_star_class isClass_DIGIT s).symm

/-! ## Delimiters -/

/-- What ends a scheme, a version or a first segment does not occur in it. -/
theorem avoids_scheme : avoids '.' (many1 HEXDIG) = true ∧ avoids ':' scheme = true ∧
    avoids '/' scheme = true ∧ avoids ':' segmentNzNc = true := by
  decide

/-- The delimiters of an authority. -/
theorem avoids_authority : avoids ']' (ipv6Address + ipvFuture) = true ∧
    (avoids ':' regName = true ∧ avoids ':' port = true ∧
      avoids '[' (regName * opt (char ':' * port)) = true ∧
      avoids ']' (regName * opt (char ':' * port)) = true) ∧
    (avoids '@' userinfo = true ∧ avoids '@' (host * opt (char ':' * port)) = true) ∧
    avoids '/' authority = true := by
  decide

/-! ## Authorities -/

/-- What follows the letter of an IPvFuture. -/
theorem versionAndAddress_iff (s : Text) :
    (match splitOnce '.' s with
      | some (version, address) => !version.isEmpty && version.all isHexDigit &&
          !address.isEmpty && address.all fun c => isUnreserved c || isSubDelim c || c == ':'
      | none => false) = true ↔
      Derives (many1 HEXDIG * (char '.' * many1 (unreserved + subDelims + char ':'))) s := by
  have hversion := derives_many1_class isClass_HEXDIG
  have haddress := derives_many1_class (IsClass.add (IsClass.add isClass_unreserved isClass_subDelims)
    (isClass_char ':'))
  rw [derives_mul]
  constructor
  · intro h
    split at h
    · rename_i version address hsplit
      obtain ⟨rfl, -⟩ := splitOnce_eq_some_iff.mp hsplit
      simp only [Bool.and_eq_true, Bool.not_eq_true', List.isEmpty_eq_false_iff] at h
      exact ⟨version, '.' :: address, (hversion _).mpr h.1.1,
        derives_char_mul.mpr ⟨address, (haddress _).mpr ⟨h.1.2, h.2⟩, rfl⟩, rfl⟩
    · cases h
  · rintro ⟨version, rest, hv, hrest, rfl⟩
    obtain ⟨address, ha, rfl⟩ := derives_char_mul.mp hrest
    obtain ⟨hdot, -⟩ := avoids_scheme
    rw [splitOnce_append (notMem_of_avoids hdot hv)]
    obtain ⟨hvne, hv⟩ := (hversion _).mp hv
    obtain ⟨hane, ha⟩ := (haddress _).mp ha
    simp only [Bool.and_eq_true, Bool.not_eq_true', List.isEmpty_eq_false_iff]
    exact ⟨⟨⟨hvne, hv⟩, hane⟩, ha⟩

theorem isValidIpvFuture_iff (s : Text) : isValidIpvFuture s = true ↔ Derives ipvFuture s := by
  rw [ipvFuture, derives_mul]
  constructor
  · intro h
    unfold isValidIpvFuture at h
    split at h
    · rename_i rest
      exact ⟨['v'], rest, derives_anyOf.mpr ⟨'v', by decide, rfl⟩,
        (versionAndAddress_iff rest).mp h, rfl⟩
    · rename_i rest
      exact ⟨['V'], rest, derives_anyOf.mpr ⟨'V', by decide, rfl⟩,
        (versionAndAddress_iff rest).mp h, rfl⟩
    · cases h
  · rintro ⟨a, rest, ha, hrest, rfl⟩
    obtain ⟨c, hc, rfl⟩ := derives_anyOf.mp ha
    have hrest := (versionAndAddress_iff rest).mpr hrest
    have hletter : c = 'v' ∨ c = 'V' := by simpa using hc
    rcases hletter with rfl | rfl <;> exact hrest

theorem rsplitOnce_eq_some_iff {c : Char} {s t u : Text} :
    rsplitOnce c s = some (t, u) ↔ s = t ++ c :: u ∧ c ∉ u := by
  unfold rsplitOnce
  rw [Option.map_eq_some_iff]
  constructor
  · rintro ⟨⟨a, b⟩, hsplit, heq⟩
    obtain ⟨hs, hc⟩ := splitOnce_eq_some_iff.mp hsplit
    cases heq
    refine ⟨?_, by simpa using hc⟩
    rw [← List.reverse_reverse s, hs]
    simp
  · rintro ⟨rfl, hc⟩
    refine ⟨(u.reverse, t.reverse), splitOnce_eq_some_iff.mpr ⟨by simp, by simpa using hc⟩, ?_⟩
    simp

theorem rsplitOnce_eq_none {c : Char} {s : Text} (h : c ∉ s) : rsplitOnce c s = none := by
  unfold rsplitOnce
  rw [splitOnce_eq_none (by simpa using h)]
  rfl

/-- An IPv4 address is a registered name. -/
theorem derives_regName_of_ipv4Address {s : Text} (h : Derives ipv4Address s) :
    Derives regName s := by
  have hall : ∀ c ∈ s, isRegNameChar c = true := forall_mem_of_usesOnly (by decide) h
  rw [regName, ← validUriComponent_iff isUnit_regNameChar (by decide)]
  clear h
  induction s with
  | nil => rfl
  | cons c s ih =>
    rw [List.forall_mem_cons] at hall
    have hc : c ≠ '%' := by
      rintro rfl
      exact absurd hall.1 (by decide)
    rw [validUriComponent_cons hc, hall.1, Bool.true_and]
    exact ih hall.2

theorem derives_host {s : Text} : Derives host s ↔ Derives ipLiteral s ∨ Derives regName s := by
  unfold host
  rw [derives_add, derives_add]
  constructor
  · rintro ((h | h) | h)
    · exact Or.inl h
    · exact Or.inr (derives_regName_of_ipv4Address h)
    · exact Or.inr h
  · rintro (h | h)
    · exact Or.inl (Or.inl h)
    · exact Or.inr h

theorem derives_ipLiteral {s : Text} : Derives ipLiteral s ↔
    ∃ t, Derives (ipv6Address + ipvFuture) t ∧ s = '[' :: (t ++ [']']) := by
  unfold ipLiteral
  rw [derives_char_mul]
  constructor
  · rintro ⟨x, hx, rfl⟩
    obtain ⟨t, y, ht, hy, rfl⟩ := derives_mul.mp hx
    rw [derives_char.mp hy]
    exact ⟨t, ht, rfl⟩
  · rintro ⟨t, ht, rfl⟩
    exact ⟨_, derives_mul.mpr ⟨t, [']'], ht, derives_char.mpr rfl, rfl⟩, rfl⟩

/-- A port with its colon, or nothing. -/
theorem derives_optPort {s : Text} : Derives (opt (char ':' * port)) s ↔
    s = [] ∨ ∃ p, isPort p = true ∧ s = ':' :: p := by
  rw [derives_opt, derives_char_mul]
  exact or_congr Iff.rfl (exists_congr fun p => and_congr_left fun _ => (isPort_iff p).symm)

/-- What stands before the query. -/
def main : RegularExpression Char := scheme * (char ':' * hierPart) + relativePart

theorem isValidScheme_iff (s : Text) : isValidScheme s = true ↔ Derives scheme s := by
  have hrest := derives_star_class (IsClass.add isClass_alphanum (isClass_contains "+-.".toList))
  unfold scheme
  rw [derives_mul]
  constructor
  · intro h
    cases s with
    | nil => cases h
    | cons c t =>
      rw [isValidScheme, Bool.and_eq_true] at h
      exact ⟨[c], t, (isClass_ALPHA _).mpr ⟨c, h.1, rfl⟩, (hrest t).mpr h.2, rfl⟩
  · rintro ⟨a, t, ha, ht, rfl⟩
    obtain ⟨c, hc, rfl⟩ := (isClass_ALPHA a).mp ha
    show isValidScheme (c :: t) = true
    rw [isValidScheme, hc, Bool.true_and]
    exact (hrest t).mp ht

/-- A relative part does not begin with a scheme and a colon. -/
theorem not_relativePart_of_scheme {start rest : Text} (hscheme : Derives scheme start) :
    ¬ Derives relativePart (start ++ ':' :: rest) := by
  intro h
  obtain ⟨-, -, havoids, hfirstAvoids⟩ := avoids_scheme
  have hslash : '/' ∉ start := notMem_of_avoids havoids hscheme
  have hne : start ≠ [] := by
    rintro rfl
    exact absurd ((isValidScheme_iff []).mpr hscheme) (by decide)
  obtain ⟨c, t, rfl⟩ := List.exists_cons_of_ne_nil hne
  have hc : c ≠ '/' := fun h => hslash (by simp [h])
  rw [relativePart, derives_add, derives_add, derives_add] at h
  rcases h with ((h | h) | h) | h
  · obtain ⟨a, b, ha, -, heq⟩ := derives_mul.mp h
    rw [derives_textRule.mp ha] at heq
    exact hc (List.cons.inj heq).1
  · rw [← isValidAbsolutePath_iff, List.cons_append, isValidAbsolutePath_ne_slash hc] at h
    cases h
  · -- the colon is in the first segment, before any slash
    obtain ⟨first, slashes, hfirst, hslashes, heq⟩ := derives_mul.mp h
    have hcolon : ':' ∉ first := notMem_of_avoids hfirstAvoids hfirst
    obtain ⟨parts, -, rfl⟩ := derives_slashes.mp hslashes
    rcases List.append_eq_append_iff.mp heq with ⟨w, hw, hrest⟩ | ⟨w, hw, hrest⟩
    · cases w with
      | nil => cases parts <;> simp at hrest
      | cons d w =>
        rw [hw, ← (List.cons.inj hrest).1] at hcolon
        simp at hcolon
    · cases parts with
      | nil => simp at hrest
      | cons p parts =>
        cases w with
        | nil => simp at hrest
        | cons d w =>
          rw [hw, ← (List.cons.inj hrest).1] at hslash
          simp at hslash
  · cases h

section Ipv6

variable {isIpv6Addr : Text → Bool} (hipv6 : ∀ s, isIpv6Addr s = true ↔ Derives ipv6Address s)

include hipv6

theorem isValidIpLiteral_iff (s : Text) :
    isValidIpLiteral isIpv6Addr s = true ↔ Derives (ipv6Address + ipvFuture) s := by
  unfold isValidIpLiteral
  rw [Bool.or_eq_true, hipv6, isValidIpvFuture_iff, derives_add]

/-- The bracket opens an IP literal. -/
theorem isValidHostAndPort_bracket (s : Text) :
    isValidHostAndPort isIpv6Addr ('[' :: s) = true ↔
      Derives (host * opt (char ':' * port)) ('[' :: s) := by
  rw [isValidHostAndPort.eq_1, derives_mul]
  constructor
  · intro h
    split at h
    · rename_i literal suffix hsplit
      obtain ⟨rfl, -⟩ := splitOnce_eq_some_iff.mp hsplit
      rw [Bool.and_eq_true, isValidIpLiteral_iff hipv6] at h
      refine ⟨'[' :: (literal ++ [']']), suffix, (derives_host).mpr (Or.inl ?_), ?_, by simp⟩
      · exact (derives_ipLiteral).mpr ⟨literal, h.1, rfl⟩
      · rw [derives_optPort]
        split at h
        · exact Or.inl rfl
        · exact Or.inr ⟨_, h.2, rfl⟩
        · cases h.2
    · cases h
  · rintro ⟨a, b, ha, hb, heq⟩
    rcases (derives_host).mp ha with ha | ha
    · obtain ⟨t, ht, rfl⟩ := (derives_ipLiteral).mp ha
      have hs : s = t ++ ']' :: b := by simpa using heq
      obtain ⟨haddress, -⟩ := avoids_authority
      rw [hs, splitOnce_append (notMem_of_avoids haddress ht)]
      rw [Bool.and_eq_true, isValidIpLiteral_iff hipv6]
      refine ⟨ht, ?_⟩
      rcases (derives_optPort).mp hb with rfl | ⟨p, hp, rfl⟩
      · rfl
      · exact hp
    · -- a registered name has no bracket
      exfalso
      obtain ⟨-, ⟨-, -, hopen, -⟩, -⟩ := avoids_authority
      have hbracket : '[' ∉ a ++ b :=
        notMem_of_avoids hopen (derives_mul.mpr ⟨a, b, ha, hb, rfl⟩)
      rw [← heq] at hbracket
      exact hbracket List.mem_cons_self

theorem isValidHostAndPort_iff (s : Text) :
    isValidHostAndPort isIpv6Addr s = true ↔ Derives (host * opt (char ':' * port)) s := by
  by_cases hbracket : ∃ t, s = '[' :: t
  · obtain ⟨t, rfl⟩ := hbracket
    exact isValidHostAndPort_bracket hipv6 t
  have hmodel : isValidHostAndPort isIpv6Addr s =
      if s.contains '[' || s.contains ']' then false
      else
        match rsplitOnce ':' s with
        | some (host, port) =>
          !host.contains ':' && validUriComponent isRegNameChar host && isPort port
        | none => validUriComponent isRegNameChar s := by
    unfold isValidHostAndPort
    split
    · exact absurd ⟨_, rfl⟩ hbracket
    · rfl
  have hreg (t : Text) : validUriComponent isRegNameChar t = true ↔ Derives regName t :=
    validUriComponent_iff isUnit_regNameChar (by decide) t
  rw [hmodel, derives_mul]
  constructor
  · intro h
    split at h
    · cases h
    · split at h
      · rename_i name p hsplit
        obtain ⟨rfl, -⟩ := (rsplitOnce_eq_some_iff).mp hsplit
        simp only [Bool.and_eq_true] at h
        exact ⟨name, ':' :: p, (derives_host).mpr (Or.inr ((hreg name).mp h.1.2)),
          (derives_optPort).mpr (Or.inr ⟨p, h.2, rfl⟩), rfl⟩
      · exact ⟨s, [], (derives_host).mpr (Or.inr ((hreg s).mp h)),
          (derives_optPort).mpr (Or.inl rfl), (List.append_nil s).symm⟩
  · rintro ⟨a, b, ha, hb, rfl⟩
    rcases (derives_host).mp ha with ha | ha
    · obtain ⟨t, -, rfl⟩ := (derives_ipLiteral).mp ha
      exact absurd ⟨_, rfl⟩ hbracket
    · obtain ⟨-, ⟨hname, hport, hopen, hclose⟩, -⟩ := avoids_authority
      have hab : Derives (regName * opt (char ':' * port)) (a ++ b) :=
        derives_mul.mpr ⟨a, b, ha, hb, rfl⟩
      have hcolon : ':' ∉ a := notMem_of_avoids hname ha
      have hbrackets : ¬ ((a ++ b).contains '[' || (a ++ b).contains ']') = true := by
        simp only [Bool.or_eq_true, List.contains_iff_mem, not_or]
        exact ⟨notMem_of_avoids hopen hab, notMem_of_avoids hclose hab⟩
      rw [if_neg hbrackets]
      rcases (derives_optPort).mp hb with rfl | ⟨p, hp, rfl⟩
      · rw [List.append_nil, rsplitOnce_eq_none hcolon]
        exact (hreg a).mpr ha
      · have hp' : ':' ∉ p := notMem_of_avoids hport ((isPort_iff p).mp hp)
        rw [(rsplitOnce_eq_some_iff).mpr ⟨rfl, hp'⟩]
        simp only [Bool.and_eq_true, Bool.not_eq_true', List.contains_eq_mem, decide_eq_false_iff_not]
        exact ⟨⟨hcolon, (hreg a).mpr ha⟩, hp⟩

/-- A user in front of an at sign, or none. -/
theorem isValidAuthority_iff (s : Text) :
    isValidAuthority isIpv6Addr s = true ↔ Derives authority s := by
  have huser (t : Text) : validUriComponent isUserinfoChar t = true ↔ Derives userinfo t :=
    validUriComponent_iff isUnit_userinfoChar (by decide) t
  obtain ⟨-, -, ⟨huserAvoids, hhostAvoids⟩, -⟩ := avoids_authority
  have hat {t : Text} (ht : Derives (host * opt (char ':' * port)) t) : '@' ∉ t :=
    notMem_of_avoids hhostAvoids ht
  unfold isValidAuthority authority
  rw [derives_mul]
  constructor
  · intro h
    split at h
    · rename_i user hostAndPort hsplit
      obtain ⟨rfl, -⟩ := (rsplitOnce_eq_some_iff).mp hsplit
      rw [Bool.and_eq_true, Bool.and_eq_true, isValidHostAndPort_iff hipv6] at h
      refine ⟨user ++ ['@'], hostAndPort, derives_opt.mpr (Or.inr ?_), h.2, by simp⟩
      exact derives_mul.mpr ⟨user, ['@'], (huser user).mp h.1.2, derives_char.mpr rfl, rfl⟩
    · rw [isValidHostAndPort_iff hipv6] at h
      exact ⟨[], s, derives_opt.mpr (Or.inl rfl), h, rfl⟩
  · rintro ⟨a, t, ha, ht, rfl⟩
    rcases derives_opt.mp ha with rfl | ha
    · rw [List.nil_append, rsplitOnce_eq_none (hat ht)]
      exact (isValidHostAndPort_iff hipv6 t).mpr ht
    · obtain ⟨user, x, hu, hx, rfl⟩ := derives_mul.mp ha
      rw [derives_char.mp hx, List.append_assoc, List.singleton_append]
      rw [(rsplitOnce_eq_some_iff).mpr ⟨rfl, hat ht⟩]
      simp only [Bool.and_eq_true, Bool.not_eq_true', List.contains_eq_mem, decide_eq_false_iff_not]
      exact ⟨⟨notMem_of_avoids huserAvoids hu, (huser user).mpr hu⟩,
        (isValidHostAndPort_iff hipv6 t).mpr ht⟩

theorem isValidAuthorityAndPath_iff (s : Text) :
    isValidAuthorityAndPath isIpv6Addr s = true ↔ Derives (authority * pathAbempty) s := by
  unfold isValidAuthorityAndPath
  rw [Bool.and_eq_true, isValidAuthority_iff hipv6, isValidAbemptyPath_iff, derives_mul]
  constructor
  · rintro ⟨ha, hp⟩
    exact ⟨_, _, ha, hp, List.takeWhile_append_dropWhile.symm⟩
  · rintro ⟨a, p, ha, hp, rfl⟩
    obtain ⟨-, -, -, havoids⟩ := avoids_authority
    have hslash : '/' ∉ a := notMem_of_avoids havoids ha
    have hall : ∀ c ∈ a, decide (c ≠ '/') = true :=
      fun c hc => decide_eq_true fun h => hslash (h ▸ hc)
    have hpath : p.takeWhile (fun c => decide (c ≠ '/')) = [] ∧
        p.dropWhile (fun c => decide (c ≠ '/')) = p := by
      obtain ⟨parts, -, rfl⟩ := derives_slashes.mp hp
      cases parts <;> simp
    rw [List.takeWhile_append_of_pos hall, List.dropWhile_append_of_pos hall, hpath.1, hpath.2,
      List.append_nil]
    exact ⟨ha, hp⟩

/-! ## References -/

/-- The rules hier-part and relative-part, for the rule of a path without a slash. -/
theorem isValidPart_iff {path : RegularExpression Char} {colon : Bool}
    (hpath : ∀ s, isValidRootlessPath s colon = true ↔ Derives path s) (s : Text) :
    isValidPart isIpv6Addr s colon = true ↔
      Derives (textRule "//".toList * (authority * pathAbempty) + pathAbsolute + path +
        pathEmpty) s := by
  have hslashes : Derives (textRule "//".toList * (authority * pathAbempty)) s ↔
      ∃ t, isValidAuthorityAndPath isIpv6Addr t = true ∧ s = '/' :: '/' :: t := by
    rw [derives_mul]
    constructor
    · rintro ⟨a, t, ha, ht, rfl⟩
      rw [derives_textRule.mp ha]
      exact ⟨t, (isValidAuthorityAndPath_iff hipv6 t).mpr ht, rfl⟩
    · rintro ⟨t, ht, rfl⟩
      exact ⟨_, t, derives_textRule.mpr rfl, (isValidAuthorityAndPath_iff hipv6 t).mp ht, rfl⟩
  rw [derives_add, derives_add, derives_add, hslashes, ← isValidAbsolutePath_iff, ← hpath,
    pathEmpty, derives_one]
  unfold isValidPart
  split
  · rename_i t
    simp [isValidAbsolutePath_slashes, isValidRootlessPath_slash]
  · rename_i t hne
    have hno : ∀ t', t ≠ '/' :: t' := fun t' h => hne t' (by rw [h])
    simp [isValidRootlessPath_slash, hno]
  · rename_i hne hne'
    cases s with
    | nil =>
      exact iff_of_true rfl (Or.inr rfl)
    | cons c t =>
      have hc : c ≠ '/' := fun h => hne' t (by rw [h])
      simp [isValidAbsolutePath_ne_slash, hc]

theorem isValidHierPart_iff (s : Text) :
    isValidHierPart isIpv6Addr s = true ↔ Derives hierPart s :=
  isValidPart_iff hipv6 isValidRootlessPath_iff s

theorem isValidRelativePart_iff (s : Text) :
    isValidRelativePart isIpv6Addr s = true ↔ Derives relativePart s :=
  isValidPart_iff hipv6 isValidNoschemePath_iff s

theorem isValidMain_iff (s : Text) : isValidMain isIpv6Addr s = true ↔ Derives main s := by
  obtain ⟨-, hcolon, hslash, -⟩ := avoids_scheme
  have hscheme {t : Text} (ht : Derives scheme t) : ':' ∉ t ∧ '/' ∉ t :=
    ⟨notMem_of_avoids hcolon ht, notMem_of_avoids hslash ht⟩
  unfold isValidMain main
  rw [derives_add, derives_mul]
  constructor
  · intro h
    split at h
    · rename_i start hier hsplit
      obtain ⟨rfl, -⟩ := splitOnce_eq_some_iff.mp hsplit
      split at h
      · rename_i hstart
        rw [Bool.and_eq_true, isValidScheme_iff] at hstart
        exact Or.inl ⟨start, _, hstart.2,
          derives_char_mul.mpr ⟨hier, (isValidHierPart_iff hipv6 hier).mp h, rfl⟩, rfl⟩
      · exact Or.inr ((isValidRelativePart_iff hipv6 _).mp h)
    · exact Or.inr ((isValidRelativePart_iff hipv6 _).mp h)
  · rintro (⟨start, t, hs, ht, rfl⟩ | h)
    · obtain ⟨hier, hh, rfl⟩ := derives_char_mul.mp ht
      rw [splitOnce_append (hscheme hs).1]
      dsimp only
      rw [if_pos (by
        rw [Bool.and_eq_true, isValidScheme_iff]
        exact ⟨by simpa using (hscheme hs).2, hs⟩)]
      exact (isValidHierPart_iff hipv6 hier).mpr hh
    · split
      · rename_i start hier hsplit
        obtain ⟨rfl, -⟩ := splitOnce_eq_some_iff.mp hsplit
        split
        · rename_i hstart
          rw [Bool.and_eq_true, isValidScheme_iff] at hstart
          exact absurd h (not_relativePart_of_scheme hstart.2)
        · exact (isValidRelativePart_iff hipv6 _).mpr h
      · exact (isValidRelativePart_iff hipv6 _).mpr h

end Ipv6

/-! ## Query and fragment -/

theorem avoids_main : avoids '?' main = true ∧ avoids '#' query = true ∧
    avoids '#' (main * opt (char '?' * query)) = true := by
  decide

/-- A part that may follow a separator, which the rule before it does not use. -/
theorem separated_iff {c : Char} {p q : RegularExpression Char} {check check' : Text → Bool}
    (hp : ∀ s, check s = true ↔ Derives p s) (hq : ∀ s, check' s = true ↔ Derives q s)
    (hc : avoids c p = true) (s : Text) :
    (match splitOnce c s with
      | some (start, rest) => check' rest && check start
      | none => check s) = true ↔ Derives (p * opt (char c * q)) s := by
  rw [derives_mul]
  constructor
  · intro h
    split at h
    · rename_i start rest hsplit
      obtain ⟨rfl, -⟩ := splitOnce_eq_some_iff.mp hsplit
      rw [Bool.and_eq_true, hq, hp] at h
      exact ⟨start, c :: rest, h.2,
        derives_opt.mpr (Or.inr (derives_char_mul.mpr ⟨rest, h.1, rfl⟩)), rfl⟩
    · exact ⟨s, [], (hp s).mp h, derives_opt.mpr (Or.inl rfl), (List.append_nil s).symm⟩
  · rintro ⟨start, t, hs, ht, rfl⟩
    have hstart : c ∉ start := notMem_of_avoids hc hs
    rcases derives_opt.mp ht with rfl | ht
    · rw [List.append_nil, splitOnce_eq_none hstart]
      exact (hp start).mpr hs
    · obtain ⟨rest, hrest, rfl⟩ := derives_char_mul.mp ht
      rw [splitOnce_append hstart]
      dsimp only
      rw [Bool.and_eq_true, hq, hp]
      exact ⟨hrest, hs⟩

theorem validUriComponent_query_iff (s : Text) :
    validUriComponent isQueryChar s = true ↔ Derives query s :=
  validUriComponent_iff isUnit_queryChar (by decide) s

/-- Both alternatives end in the same way. -/
theorem derives_uriReference {s : Text} : Derives uriReference s ↔
    Derives (main * opt (char '?' * query) * opt (char '#' * fragment)) s := by
  have hmain (t : Text) : Derives (main * opt (char '?' * query)) t ↔
      Derives (scheme * (char ':' * hierPart) * opt (char '?' * query)) t ∨
        Derives (relativePart * opt (char '?' * query)) t := by
    rw [main, derives_mul, derives_mul, derives_mul]
    simp only [derives_add, or_and_right, exists_or]
  rw [uriReference, derives_add, uri, relativeRef, derives_mul, derives_mul, derives_mul]
  simp only [hmain, or_and_right, exists_or]

end Uri

open Uri

/-- **The checker of URI references is exact.** -/
theorem isValidUriReference_iff {isIpv6Addr : Text → Bool}
    (hipv6 : ∀ s, isIpv6Addr s = true ↔ Derives ipv6Address s) (s : Text) :
    isValidUriReference isIpv6Addr s = true ↔ Derives uriReference s := by
  rw [derives_uriReference]
  obtain ⟨hmain, hquery, hwhole⟩ := avoids_main
  have hwithout (t : Text) : isValidWithoutFragment isIpv6Addr t = true ↔
      Derives (main * opt (char '?' * query)) t :=
    separated_iff (isValidMain_iff hipv6) validUriComponent_query_iff hmain t
  have hfragment (t : Text) : (!t.contains '#' && validUriComponent isQueryChar t) = true ↔
      Derives fragment t := by
    rw [Bool.and_eq_true, validUriComponent_query_iff]
    refine ⟨And.right, fun h => ⟨?_, h⟩⟩
    have : '#' ∉ t := notMem_of_avoids hquery h
    simpa using this
  exact separated_iff hwithout hfragment hwhole s

/-- An authority with an IP literal and a port. -/
theorem isValidUriReference_ipLiteral :
    isValidUriReference ipv6Address.rmatch "foo://user@[::1]:80/%C3%A9?q#f".toList = true ∧
      Derives uriReference "foo://user@[::1]:80/%C3%A9?q#f".toList := by
  have hipv6 (s : Text) : ipv6Address.rmatch s = true ↔ Derives ipv6Address s :=
    rmatch_iff_matches' ipv6Address s
  have h : isValidUriReference ipv6Address.rmatch "foo://user@[::1]:80/%C3%A9?q#f".toList =
      true := by
    decide +kernel
  exact ⟨h, (isValidUriReference_iff hipv6 _).mp h⟩

end Fusen.Wire
