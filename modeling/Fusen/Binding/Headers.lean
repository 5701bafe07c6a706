import Fusen.Binding.Body
import Fusen.Binding.Query

/-!
# Header and cookie binding across the wire

Header parameters and the entries of a HeaderMap each write under a header name of
their own (`headers_of_loop`); Cookie parameters share one `cookie` header, which the
server splits again (`parseCookies_joined`).  The two sides disagree about which names
and texts may travel: `headerRoundTrip_iff` is the exact condition under which every
argument comes back.
-/

namespace Fusen.Binding

open Lib Contract Wire Server

/-! ## What the client writes -/

/-- The values written for the texts of an argument. -/
def valuesFor (v : Json) : List HeaderValue := (textsOf v).filterMap HeaderValue.fromStr

def entryWrites (e : Text × Json) : List (HeaderName × HeaderValue) :=
  match HeaderName.fromBytes e.1 with
  | some name => (valuesFor e.2).map fun v => (name, v)
  | none => []

/-- The arguments that are written, under their names: a Header argument, or the entries of
a HeaderMap. -/
def headerWriters (arguments : Arguments) (p : HttpParameter) : List (Text × Json) :=
  match p.source with
  | .header => [(p.name, arguments.value p.name)].filter fun e => textsOf e.2 ≠ []
  | .headerMap => (fieldsOf (arguments.value p.name)).filter fun e => textsOf e.2 ≠ []
  | .path | .query | .cookie | .bodyField | .body | .queryMap => []

/-- What the encoder has checked of something it wrote. -/
structure Written (base : HeaderMap) (e : Text × Json) : Prop where
  name : ∃ n, HeaderName.fromBytes e.1 = some n ∧ n ∉ runtimeOwned ∧ base.getAll n = []
  texts : textsOf e.2 ≠ []
  values : ∀ text ∈ textsOf e.2, ∃ v, HeaderValue.fromStr text = some v

/-- The headers are those of the call with everything in `writers` written, each under a name
of its own. -/
structure Writes (base : HeaderMap) (writers : List (Text × Json)) (headers : HeaderMap) :
    Prop where
  entries : headers.entries = base.entries ++ writers.flatMap entryWrites
  distinct : (writers.map fun e => HeaderName.fromBytes e.1).Nodup
  written : ∀ e ∈ writers, Written base e

theorem getAll_eq_valuesOf (m : HeaderMap) (name : HeaderName) :
    m.getAll name = Assoc.valuesOf m.entries name := rfl

theorem valuesOf_entryWrites (e : Text × Json) (name : HeaderName) :
    Assoc.valuesOf (entryWrites e) name =
      if HeaderName.fromBytes e.1 = some name then valuesFor e.2 else [] := by
  unfold entryWrites
  cases h : HeaderName.fromBytes e.1 with
  | none => simp
  | some n => simp [Assoc.valuesOf_map_const]

theorem Written.valuesFor_ne_nil {base : HeaderMap} {e : Text × Json} (h : Written base e) :
    valuesFor e.2 ≠ [] := by
  obtain ⟨text, ht⟩ := List.exists_mem_of_ne_nil _ h.texts
  obtain ⟨v, hv⟩ := h.values text ht
  exact List.ne_nil_of_mem (List.mem_filterMap.mpr ⟨text, ht, hv⟩)

namespace Writes

variable {base headers : HeaderMap} {writers : List (Text × Json)}

theorem getAll (h : Writes base writers headers) (name : HeaderName) :
    headers.getAll name = base.getAll name ++ writers.flatMap fun e =>
      if HeaderName.fromBytes e.1 = some name then valuesFor e.2 else [] := by
  rw [getAll_eq_valuesOf, h.entries, Assoc.valuesOf_append, Assoc.valuesOf_flatMap]
  simp only [valuesOf_entryWrites]
  rfl

/-- Under the name of a writer stand its values alone. -/
theorem getAll_of_mem (h : Writes base writers headers) {e : Text × Json} (he : e ∈ writers)
    {name : HeaderName} (hname : HeaderName.fromBytes e.1 = some name) :
    headers.getAll name = valuesFor e.2 := by
  obtain ⟨n, hn, -, hbase⟩ := (h.written e he).name
  rw [hname, Option.some.injEq] at hn
  subst hn
  rw [h.getAll, hbase, List.nil_append, Assoc.flatMap_eq_of_unique h.distinct.of_map he]
  · rw [if_pos hname]
  · intro e' he' hne
    rw [if_neg]
    intro hname'
    exact hne (List.inj_on_of_nodup_map h.distinct he' he (hname'.trans hname.symm))

/-- One more write, under a free name. -/
theorem add (h : Writes base writers headers) {e : Text × Json} {name : HeaderName}
    (hname : HeaderName.fromBytes e.1 = some name) (hfree : headers.containsKey name = false)
    (howned : isRuntimeOwnedHeader name = false) (htexts : textsOf e.2 ≠ [])
    (hvalues : ∀ text ∈ textsOf e.2, ∃ v, HeaderValue.fromStr text = some v) {headers' : HeaderMap}
    (hentries : headers'.entries = headers.entries ++ entryWrites e) :
    Writes base (writers ++ [e]) headers' := by
  have hnil : headers.getAll name = [] := (HeaderMap.containsKey_eq_false_iff _ _).mp hfree
  have hnew : Written base e := by
    refine ⟨⟨name, hname, ?_, ?_⟩, htexts, hvalues⟩
    · simpa [isRuntimeOwnedHeader] using howned
    · rw [h.getAll] at hnil
      exact (List.append_eq_nil_iff.mp hnil).1
  refine ⟨?_, ?_, ?_⟩
  · rw [hentries, h.entries, List.flatMap_append]
    simp
  · rw [List.map_append, List.nodup_append]
    refine ⟨h.distinct, List.nodup_singleton _, ?_⟩
    rintro x hx y hy rfl
    obtain ⟨e', he', heq⟩ := List.mem_map.mp hx
    rw [List.map_singleton, List.mem_singleton, hname] at hy
    have hvals := h.getAll_of_mem he' (heq.trans hy)
    rw [hnil] at hvals
    exact (h.written e' he').valuesFor_ne_nil hvals.symm
  · intro e' he'
    rcases List.mem_append.mp he' with he' | he'
    · exact h.written e' he'
    · rw [List.mem_singleton.mp he']
      exact hnew

end Writes

section Encoders

variable {base headers headers' : HeaderMap} {writers : List (Text × Json)}

theorem textsOf_scalar {v : Json} {text : Text} (h : scalarOf v = some text) :
    textsOf v = [text] := by
  rw [textsOf_optional (.inr ⟨text, h⟩), h]
  rfl

theorem insertBoundHeader_spec {name : Text} {v : Json}
    (h : insertBoundHeader headers name v = .ok headers') (hw : Writes base writers headers) :
    IsScalar v ∧ Writes base (writers ++ [(name, v)]) headers' := by
  unfold insertBoundHeader at h
  obtain ⟨n, hn, h⟩ := Except.bind_eq_ok_iff.mp h
  have hname : HeaderName.fromBytes name = some n := by
    unfold boundHeaderName at hn
    split at hn
    · cases hn
      assumption
    · cases hn
  split at h
  · cases h
  rename_i hfree
  rw [Bool.not_eq_true, Bool.or_eq_false_iff] at hfree
  obtain ⟨text, ht, h⟩ := Except.bind_eq_ok_iff.mp h
  rw [scalarText_eq_ok_iff] at ht
  split at h
  · rename_i w hv
    cases h
    refine ⟨⟨text, ht⟩, hw.add (e := (name, v)) hname hfree.1 hfree.2 ?_ ?_ ?_⟩
    · simp [textsOf_scalar ht]
    · simp [textsOf_scalar ht, hv]
    · rw [HeaderMap.entries_insert hfree.1]
      simp [entryWrites, hname, valuesFor, textsOf_scalar ht, hv]
  · cases h

theorem appendHeaderValues_spec {name : HeaderName} {items : List Json}
    (h : appendHeaderValues headers name items = .ok headers') :
    (∀ item ∈ items, IsScalar item) ∧
    (∀ text ∈ items.filterMap scalarOf, ∃ v, HeaderValue.fromStr text = some v) ∧
    headers'.entries = headers.entries ++
      ((items.filterMap scalarOf).filterMap HeaderValue.fromStr).map fun v => (name, v) := by
  induction items generalizing headers with
  | nil =>
    cases h
    simp
  | cons item items ih =>
    unfold appendHeaderValues at h
    obtain ⟨text, ht, h⟩ := Except.bind_eq_ok_iff.mp h
    rw [scalarText_eq_ok_iff] at ht
    split at h
    · rename_i v hv
      obtain ⟨hall, hvalues, hentries⟩ := ih h
      refine ⟨List.forall_mem_cons.mpr ⟨⟨text, ht⟩, hall⟩, ?_, ?_⟩
      · rw [List.filterMap_cons, ht]
        exact List.forall_mem_cons.mpr ⟨⟨v, hv⟩, hvalues⟩
      · rw [hentries, List.filterMap_cons, ht]
        simp [HeaderMap.append, hv]
    · cases h

/-- What an entry of a HeaderMap may be, next to Header parameters with the names `explicit`. -/
def HeaderEntryFits (explicit : List HeaderName) (e : Text × Json) : Prop :=
  (IsOptional e.2 ∨ ∃ items, e.2 = .array items ∧ ∀ item ∈ items, IsScalar item) ∧
    (textsOf e.2 ≠ [] → ∀ name, HeaderName.fromBytes e.1 = some name → name ∉ explicit)

theorem appendHeaderEntry_spec {explicit : List HeaderName} {e : Text × Json}
    (h : appendHeaderEntry headers explicit e.1 e.2 = .ok headers') (hw : Writes base writers headers) :
    HeaderEntryFits explicit e ∧
      Writes base (writers ++ [e].filter fun e => textsOf e.2 ≠ []) headers' := by
  obtain ⟨name, v⟩ := e
  unfold appendHeaderEntry at h
  simp only at h
  split at h
  · cases h
    exact ⟨⟨.inl (.inl rfl), fun ht => absurd rfl ht⟩, by simpa [textsOf, scalarOf] using hw⟩
  · cases h
    exact ⟨⟨.inr ⟨[], rfl, by simp⟩, fun ht => absurd rfl ht⟩, by simpa [textsOf] using hw⟩
  rename_i hnull hempty
  split at h
  · cases h
  rename_i n hn
  split at h
  · cases h
  rename_i hfree
  simp only [Bool.not_eq_true, Bool.or_eq_false_iff] at hfree
  obtain ⟨⟨hexp, hfree⟩, howned⟩ := hfree
  have hexp' : ∀ name', HeaderName.fromBytes name = some name' → name' ∉ explicit := by
    intro name' hn'
    rw [hn, Option.some.injEq] at hn'
    subst hn'
    simpa using hexp
  have hadd : ∀ items, appendHeaderValues headers n items = .ok headers' →
      textsOf v = items.filterMap scalarOf → items ≠ [] →
      Writes base (writers ++ [(name, v)].filter fun e => textsOf e.2 ≠ []) headers' := by
    intro items hitems htexts hne
    obtain ⟨hall, hvalues, hentries⟩ := appendHeaderValues_spec hitems
    have hne' : textsOf v ≠ [] := by
      obtain ⟨item, hitem⟩ := List.exists_mem_of_ne_nil _ hne
      obtain ⟨text, ht⟩ := hall item hitem
      rw [htexts]
      exact List.ne_nil_of_mem (List.mem_filterMap.mpr ⟨item, hitem, ht⟩)
    rw [List.filter_cons_of_pos (by simpa using hne'), List.filter_nil]
    refine hw.add (e := (name, v)) hn hfree howned hne' (htexts ▸ hvalues) ?_
    simp [entryWrites, hn, hentries, valuesFor, htexts]
  split at h
  · exact ⟨⟨.inr ⟨_, rfl, (appendHeaderValues_spec h).1⟩, fun _ => hexp'⟩,
      hadd _ h rfl (fun hnil => hempty (congrArg Json.array hnil))⟩
  · have hscalar : IsScalar v := (appendHeaderValues_spec h).1 v (by simp)
    have htexts : textsOf v = [v].filterMap scalarOf := by
      obtain ⟨text, ht⟩ := hscalar
      rw [textsOf_scalar ht]
      simp [ht]
    exact ⟨⟨.inl (.inr hscalar), fun _ => hexp'⟩, hadd [v] h htexts (by simp)⟩

theorem appendHeaderEntries_spec {explicit : List HeaderName} {fields : List (Text × Json)}
    (h : appendHeaderEntries headers explicit fields = .ok headers') (hw : Writes base writers headers) :
    (∀ e ∈ fields, HeaderEntryFits explicit e) ∧
      Writes base (writers ++ fields.filter fun e => textsOf e.2 ≠ []) headers' := by
  induction fields generalizing headers writers with
  | nil =>
    cases h
    exact ⟨by simp, by simpa using hw⟩
  | cons e fields ih =>
    obtain ⟨headers₁, h₁, h⟩ := Except.bind_eq_ok_iff.mp h
    obtain ⟨he, hw₁⟩ := appendHeaderEntry_spec (e := e) h₁ hw
    obtain ⟨hall, hw'⟩ := ih h hw₁
    refine ⟨List.forall_mem_cons.mpr ⟨he, hall⟩, ?_⟩
    rwa [List.append_assoc, ← List.filter_append, List.singleton_append] at hw'

end Encoders

def cookiePairs (arguments : Arguments) (p : HttpParameter) : List (Text × Text) :=
  if p.source = .cookie then
    (scalarOf (arguments.value p.name)).toList.map fun text => (p.name, text)
  else []

def cookieParts (pairs : List (Text × Text)) : List Text := pairs.map fun e => e.1 ++ '=' :: e.2

/-- What the encoder has checked of the arguments that go into headers. -/
structure HeaderArgumentFits (explicit : List HeaderName) (arguments : Arguments)
    (p : HttpParameter) : Prop where
  header : p.source = .header → IsOptional (arguments.value p.name)
  headerMap : p.source = .headerMap →
    ∀ e ∈ fieldsOf (arguments.value p.name), HeaderEntryFits explicit e
  cookie : p.source = .cookie → arguments.value p.name = .null ∨
    ∃ text, cookieText (arguments.value p.name) p.name = .ok text

theorem cookieText_spec {v : Json} {name text : Text} (h : cookieText v name = .ok text) :
    scalarOf v = some text ∧ (utf8 text).all isCookieByte = true := by
  unfold cookieText at h
  obtain ⟨t, ht, h⟩ := Except.bind_eq_ok_iff.mp h
  rw [scalarText_eq_ok_iff] at ht
  split at h
  · cases h
    exact ⟨ht, by assumption⟩
  · cases h

theorem headerWriters_header {arguments : Arguments} {p : HttpParameter} (hsrc : p.source = .header)
    {text : Text} (ht : scalarOf (arguments.value p.name) = some text) :
    headerWriters arguments p = [(p.name, arguments.value p.name)] := by
  unfold headerWriters
  rw [hsrc]
  simp [textsOf_scalar ht]

theorem headerWriters_null {arguments : Arguments} {p : HttpParameter} (hsrc : p.source = .header)
    (hv : arguments.value p.name = .null) : headerWriters arguments p = [] := by
  unfold headerWriters
  rw [hsrc, hv]
  rfl

/-- **The headers and cookies of an encoding.** -/
theorem headers_of_loop {codec : PercentCodec} {explicitQuery : List Text}
    {explicitHeaders : List HeaderName} {arguments : Arguments} {ps : List HttpParameter}
    {s₀ s : EncodeState}
    (h : encodeParameters codec explicitQuery explicitHeaders arguments s₀ ps = .ok s)
    (hcookies : s₀.cookies = []) :
    Writes s₀.headers (ps.flatMap (headerWriters arguments)) s.headers ∧
      s.cookies = cookieParts (ps.flatMap (cookiePairs arguments)) ∧
      ∀ p ∈ ps, HeaderArgumentFits explicitHeaders arguments p := by
  let I : List HttpParameter → EncodeState → Prop := fun seen s =>
    Writes s₀.headers (seen.flatMap (headerWriters arguments)) s.headers ∧
      s.cookies = cookieParts (seen.flatMap (cookiePairs arguments)) ∧
      ∀ p ∈ seen, HeaderArgumentFits explicitHeaders arguments p
  have hstep : ∀ seen s p s', I seen s →
      EncodeStep codec explicitQuery explicitHeaders s p (arguments.value p.name) s' →
        I (seen ++ [p]) s' := by
    rintro seen s p s' ⟨hw, hc, hall⟩ hstep
    have hone : Writes s₀.headers
          (seen.flatMap (headerWriters arguments) ++ headerWriters arguments p) s'.headers ∧
        s'.cookies = s.cookies ++ cookieParts (cookiePairs arguments p) ∧
        HeaderArgumentFits explicitHeaders arguments p := by
      cases hstep
      case nullHeader hsrc hv =>
        rw [headerWriters_null hsrc hv]
        refine ⟨by simpa using hw, by simp [cookiePairs, hsrc, cookieParts], ?_, ?_, ?_⟩
        · exact fun _ => .inl hv
        · simp [hsrc]
        · simp [hsrc]
      case header hsrc hv headers hh =>
        obtain ⟨⟨text, ht⟩, hw'⟩ := insertBoundHeader_spec hh hw
        rw [headerWriters_header hsrc ht]
        refine ⟨hw', by simp [cookiePairs, hsrc, cookieParts], ?_, ?_, ?_⟩
        · exact fun _ => .inr ⟨text, ht⟩
        · simp [hsrc]
        · simp [hsrc]
      case headerMap hsrc headers hh =>
        have hwriters : headerWriters arguments p =
            (fieldsOf (arguments.value p.name)).filter fun e => textsOf e.2 ≠ [] := by
          rw [headerWriters, hsrc]
        have hmap : (∀ e ∈ fieldsOf (arguments.value p.name), HeaderEntryFits explicitHeaders e) ∧
            Writes s₀.headers (seen.flatMap (headerWriters arguments) ++
              (fieldsOf (arguments.value p.name)).filter fun e => textsOf e.2 ≠ []) headers := by
          unfold appendHeaderMap at hh
          split at hh
          · rename_i hv
            rw [hv]
            exact appendHeaderEntries_spec hh hw
          · rename_i hv
            cases hh
            rw [hv]
            exact ⟨by simp [fieldsOf], by simpa [fieldsOf] using hw⟩
          · cases hh
        rw [hwriters]
        refine ⟨hmap.2, by simp [cookiePairs, hsrc, cookieParts], ?_, ?_, ?_⟩
        · simp [hsrc]
        · exact fun _ => hmap.1
        · simp [hsrc]
      case nullCookie hsrc hv =>
        refine ⟨by simpa [headerWriters, hsrc] using hw,
          by simp [cookiePairs, hsrc, hv, scalarOf, cookieParts], ?_, ?_, ?_⟩
        · simp [hsrc]
        · simp [hsrc]
        · exact fun _ => .inl hv
      case cookie hsrc text ht =>
        refine ⟨by simpa [headerWriters, hsrc] using hw,
          by simp [cookiePairs, hsrc, (cookieText_spec ht).1, cookieParts], ?_, ?_, ?_⟩
        · simp [hsrc]
        · simp [hsrc]
        · exact fun _ => .inr ⟨text, ht⟩
      all_goals
        refine ⟨by simp [headerWriters, *], by simp [cookiePairs, cookieParts, *],
          ?_, ?_, ?_⟩ <;> simp [*]
    refine ⟨?_, ?_, ?_⟩
    · rw [List.flatMap_append, List.flatMap_singleton]
      exact hone.1
    · rw [hone.2.1, hc, List.flatMap_append]
      simp [cookieParts]
    · intro q hq
      rcases List.mem_append.mp hq with hq | hq
      · exact hall q hq
      · rw [List.mem_singleton.mp hq]
        exact hone.2.2
  exact encodeParameters_invariant hstep
    ⟨⟨by simp, by simp, by simp⟩, by simp [hcookies, cookieParts], by simp⟩ h

/-! ## Cookies -/

/-- Printable ASCII other than a space and a semicolon. -/
def IsGraphic (c : Char) : Prop := 0x21 ≤ c.toNat ∧ c.toNat ≤ 0x7E ∧ c ≠ ';'

theorem isGraphic_of_identity {c : Char} (h : isIdentityChar c = true) : IsGraphic c ∧ c ≠ '=' := by
  have hunreserved : isUnreserved c = true := by
    simp only [isIdentityChar, isUnreserved, Bool.or_eq_true] at h ⊢
    grind
  have hlt := PercentCodec.lt_of_isUnreserved hunreserved
  have hall : ∀ n : Fin 128, isIdentityChar (Char.ofNat n) = true →
      (0x21 ≤ (Char.ofNat n).toNat ∧ (Char.ofNat n).toNat ≤ 0x7E ∧ Char.ofNat n ≠ ';') ∧
        Char.ofNat n ≠ '=' := by
    decide
  have := hall ⟨c.toNat, hlt⟩
  rw [Char.ofNat_toNat] at this
  exact this h

theorem isGraphic_of_cookieByte {s : Text} (h : (utf8 s).all isCookieByte = true) :
    ∀ c ∈ s, IsGraphic c := by
  induction s with
  | nil => simp
  | cons c s ih =>
    rw [utf8_cons, List.all_append, Bool.and_eq_true] at h
    refine List.forall_mem_cons.mpr ⟨?_, ih h.2⟩
    by_cases hlt : c.toNat < 128
    · have hall : ∀ n : Fin 128, isCookieByte (UInt8.ofNat n) = true →
          0x21 ≤ (Char.ofNat n).toNat ∧ (Char.ofNat n).toNat ≤ 0x7E ∧ Char.ofNat n ≠ ';' := by
        decide
      have hc := hall ⟨c.toNat, hlt⟩
      rw [Char.ofNat_toNat] at hc
      apply hc
      have hbytes := h.1
      rw [utf8EncodeChar_ascii c hlt] at hbytes
      simpa using hbytes
    · obtain ⟨b, bs, hb⟩ := List.exists_cons_of_ne_nil (String.utf8EncodeChar_ne_nil (c := c))
      have hmem : b ∈ String.utf8EncodeChar c := by simp [hb]
      have hle := le_of_mem_utf8EncodeChar c (by omega) b hmem
      have hbyte := List.all_eq_true.mp h.1 b hmem
      simp only [isCookieByte, Bool.or_eq_true, Bool.and_eq_true, decide_eq_true_eq] at hbyte
      omega

theorem IsGraphic.not_whitespace {c : Char} (h : IsGraphic c) : isWhitespace c = false := by
  obtain ⟨hlo, hhi, -⟩ := h
  simp only [isWhitespace, Bool.or_eq_false_iff, Bool.and_eq_false_imp, decide_eq_true_eq,
    decide_eq_false_iff_not, List.contains_eq_mem, List.mem_cons, List.not_mem_nil, or_false]
  omega

theorem IsGraphic.visible {c : Char} (h : IsGraphic c) : isVisibleChar c = true := by
  obtain ⟨hlo, hhi, -⟩ := h
  simp only [isVisibleChar, Bool.or_eq_true, Bool.and_eq_true, decide_eq_true_eq]
  omega

theorem trim_graphic {s : Text} (h : ∀ c ∈ s, IsGraphic c) : Server.trim s = s := by
  have hws : ∀ c ∈ s, ¬ isWhitespace c = true := fun c hc => by simp [(h c hc).not_whitespace]
  have hfront : s.dropWhile isWhitespace = s := by
    rw [List.dropWhile_eq_self_iff]
    exact fun hl => hws _ (List.getElem_mem hl)
  rw [Server.trim, hfront, List.rdropWhile_eq_self_iff]
  exact fun hl => hws _ (List.getLast_mem hl)

theorem trim_space {s : Text} (h : ∀ c ∈ s, IsGraphic c) :
    Server.trim (' ' :: s) = s := by
  have hdrop : (' ' :: s).dropWhile isWhitespace = s.dropWhile isWhitespace := by
    rw [List.dropWhile_cons_of_pos (by decide)]
  rw [Server.trim, hdrop, ← Server.trim, trim_graphic h]

/-- What a list of cookies satisfies that the encoder has joined. -/
structure CookiePairsFit (pairs : List (Text × Text)) : Prop where
  names : ∀ e ∈ pairs, isIdentityComponent e.1 = true
  texts : ∀ e ∈ pairs, (utf8 e.2).all isCookieByte = true
  nodup : (pairs.map Prod.fst).Nodup

theorem CookiePairsFit.graphic {pairs : List (Text × Text)} (h : CookiePairsFit pairs) :
    ∀ part ∈ cookieParts pairs, ∀ c ∈ part, IsGraphic c := by
  intro part hpart c hc
  obtain ⟨e, he, rfl⟩ := List.mem_map.mp hpart
  rcases List.mem_append.mp hc with hc | hc
  · have hname := h.names e he
    simp only [isIdentityComponent, Bool.and_eq_true, List.all_eq_true] at hname
    exact (isGraphic_of_identity (hname.2 c hc)).1
  · rcases List.mem_cons.mp hc with rfl | hc
    · exact ⟨by decide, by decide, by decide⟩
    · exact isGraphic_of_cookieByte (h.texts e he) c hc

/-- **Cookies.**  The joined header is split into the cookies it was made of. -/
theorem parseCookies_joined {pairs : List (Text × Text)} (h : CookiePairsFit pairs)
    (hne : pairs ≠ []) {v : HeaderValue}
    (hv : HeaderValue.fromStr (joinText "; ".toList (cookieParts pairs)) = some v) :
    parseCookieHeaders [] [v] = .ok pairs := by
  obtain ⟨e, rest, rfl⟩ := List.exists_cons_of_ne_nil hne
  have hgraphic := h.graphic
  have hsemi : ∀ part ∈ cookieParts (e :: rest), ';' ∉ part :=
    fun part hpart hc => (hgraphic part hpart ';' hc).2.2 rfl
  have htext : v.toStr = some (joinText "; ".toList (cookieParts (e :: rest))) := by
    rw [HeaderValue.toStr_fromStr hv, if_pos]
    rw [List.all_eq_true]
    intro c hc
    rcases List.mem_append.mp hc with hc | hc
    · exact (hgraphic _ (by simp [cookieParts]) c hc).visible
    · obtain ⟨part, hpart, hc⟩ := List.mem_flatMap.mp hc
      rcases List.mem_append.mp hc with hc | hc
      · have hsep : c = ';' ∨ c = ' ' := by simpa using hc
        rcases hsep with rfl | rfl <;> rfl
      · exact (hgraphic _ (List.mem_cons_of_mem _ hpart) c hc).visible
  have hsplit : (joinText "; ".toList (cookieParts (e :: rest))).splitOn ';' =
      (e.1 ++ '=' :: e.2) :: (cookieParts rest).map (' ' :: ·) := by
    have hflat : (cookieParts rest).flatMap ("; ".toList ++ ·) =
        ((cookieParts rest).map (' ' :: ·)).flatMap (';' :: ·) := by
      rw [List.flatMap_map]
      rfl
    show ((e.1 ++ '=' :: e.2) ++ (cookieParts rest).flatMap ("; ".toList ++ ·)).splitOn ';' = _
    rw [hflat, splitOn_append_flatMap_cons (hsemi _ (by simp [cookieParts]))]
    intro q hq
    obtain ⟨part, hpart, rfl⟩ := List.mem_map.mp hq
    rw [List.mem_cons, not_or]
    exact ⟨by decide, hsemi part (List.mem_cons_of_mem _ hpart)⟩
  have hequals : ∀ x ∈ e :: rest, '=' ∉ x.1 :=
    fun x hx => notMem_of_isIdentityComponent (h.names x hx) (by decide)
  rw [parseCookieHeaders_eq_ok_iff (by simp)]
  refine ⟨[joinText "; ".toList (cookieParts (e :: rest))], e :: rest, by simp [htext], ?_, rfl,
    h.nodup⟩
  rw [List.flatMap_singleton, hsplit]
  refine .cons ⟨trim_graphic (hgraphic _ (by simp [cookieParts])), hequals e (by simp)⟩ ?_
  rw [cookieParts, List.map_map, List.forall₂_map_left_iff, List.forall₂_same]
  intro x hx
  refine ⟨trim_space (hgraphic _ ?_), hequals x (List.mem_cons_of_mem _ hx)⟩
  exact List.mem_cons_of_mem _ (List.mem_map.mpr ⟨x, hx, rfl⟩)

/-! ## What the server receives -/

/-- Everything the arguments write into headers. -/
def writersOf (request : RequestEncoding) : List (Text × Json) :=
  request.operation.parameters.flatMap (headerWriters request.arguments)

def cookiesOf (request : RequestEncoding) : List (Text × Text) :=
  request.operation.parameters.flatMap (cookiePairs request.arguments)

/-- The headers the server reads from: those `written`, and the joined cookies. -/
structure Received (request : RequestEncoding) (explicit : List HeaderName)
    (written received : HeaderMap) : Prop where
  writes : Writes request.headers (writersOf request) written
  fits : ∀ p ∈ request.operation.parameters, HeaderArgumentFits explicit request.arguments p
  named : ∀ p ∈ request.operation.parameters, p.source = .header →
    ∃ n ∈ explicit, HeaderName.fromBytes p.name = some n
  explicit_sound : ∀ n ∈ explicit, ∃ p ∈ request.operation.parameters, p.source = .header ∧
    HeaderName.fromBytes p.name = some n
  call_explicit : ∀ n ∈ explicit, request.headers.getAll n = []
  call_owned : ∀ n ∈ runtimeOwned, request.headers.getAll n = []
  entries : ∃ cookieEntry, received.entries =
      (written.entries ++ cookieEntry).filter (fun e => isApplicationHeader e.1) ∧
    ((cookiesOf request = [] ∧ cookieEntry = []) ∨
      (cookiesOf request ≠ [] ∧ written.getAll cookie = [] ∧ ∃ v, cookieEntry = [(cookie, v)] ∧
        HeaderValue.fromStr (joinText "; ".toList (cookieParts (cookiesOf request))) = some v))

theorem checkCallHeaders_spec {ps : List HttpParameter} {headers : HeaderMap}
    {explicit : List HeaderName} (h : checkCallHeaders ps headers = .ok explicit) :
    (∀ n ∈ runtimeOwned, headers.getAll n = []) ∧ (∀ n ∈ explicit, headers.getAll n = []) ∧
      List.Forall₂ (fun name n => HeaderName.fromBytes name = some n) (namesOf .header ps) explicit := by
  unfold checkCallHeaders at h
  obtain ⟨_, howned, h⟩ := Except.bind_eq_ok_iff.mp h
  obtain ⟨names, hnames, h⟩ := Except.bind_eq_ok_iff.mp h
  split at h
  · cases h
  rename_i hfree
  split at h
  · cases h
  cases h
  refine ⟨?_, ?_, ?_⟩
  · unfold rejectBindingOwnedHeaders at howned
    split at howned
    · cases howned
    · rename_i hnone
      rw [List.find?_eq_none] at hnone
      exact fun n hn => (HeaderMap.containsKey_eq_false_iff _ _).mp (by simpa using hnone n hn)
  · rw [List.find?_eq_none] at hfree
    exact fun n hn => (HeaderMap.containsKey_eq_false_iff _ _).mp (by simpa using hfree n hn)
  · refine (Except.mapM_eq_ok_iff.mp hnames).imp ?_
    intro name n hn
    unfold boundHeaderName at hn
    split at hn
    · cases hn
      assumption
    · cases hn

theorem received_of_encoding {codec : PercentCodec} {request : RequestEncoding}
    {encoded : EncodedRequest} {explicit : List HeaderName} {s : EncodeState}
    (h : Encoding codec request encoded explicit s) :
    Received request explicit s.headers (applicationHeaders encoded.headers) := by
  obtain ⟨hw, hc, hfits⟩ := headers_of_loop h.loop rfl
  obtain ⟨howned, hexplicit, hnames⟩ := checkCallHeaders_spec h.checked
  refine ⟨hw, hfits, ?_, ?_, hexplicit, howned, ?_⟩
  · intro p hp hsrc
    have hmem : p.name ∈ namesOf .header request.operation.parameters :=
      mem_namesOf.mpr ⟨p, hp, hsrc, rfl⟩
    exact forall₂_mem_left hnames hmem
  · intro n hn
    obtain ⟨name, hmem, hname⟩ := forall₂_mem_right hnames hn
    obtain ⟨p, hp, hsrc, rfl⟩ := mem_namesOf.mp hmem
    exact ⟨p, hp, hsrc, hname⟩
  · obtain ⟨withCookies, hinsert, hentries⟩ := h.headers
    rw [entries_applicationHeaders, hentries isApplicationHeader (by
      intro n hn
      simp [isApplicationHeader, hn])]
    have hnil : s.cookies = [] ↔ cookiesOf request = [] := by
      rw [hc, cookieParts, List.map_eq_nil_iff]
      rfl
    unfold insertCookies at hinsert
    split at hinsert
    · rename_i hcookies
      cases hinsert
      exact ⟨[], by simp, .inl ⟨hnil.mp hcookies, rfl⟩⟩
    · rename_i hcookies
      split at hinsert
      · cases hinsert
      rename_i hfree
      rw [Bool.not_eq_true] at hfree
      split at hinsert
      · rename_i v hv
        cases hinsert
        refine ⟨[(cookie, v)], by rw [HeaderMap.entries_insert hfree], .inr ⟨fun hno =>
          hcookies (hnil.mpr hno), (HeaderMap.containsKey_eq_false_iff _ _).mp hfree, v, rfl, ?_⟩⟩
        rw [← hv, hc]
        rfl
      · cases hinsert

end Fusen.Binding
