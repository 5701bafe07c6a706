import Fusen.Binding.Headers

/-!
# Headers and cookies read back

What the server decodes from the headers of an encoded request.  Header parameters,
Cookie parameters and the HeaderMap are treated one after another (`headersBack_iff`,
`cookiesBack_iff`, `mapBack_iff`); `headerRoundTrip_iff` joins them.
-/

namespace Fusen.Binding

open Lib Contract Wire Server

namespace Received

variable {request : RequestEncoding} {explicit : List HeaderName} {written received : HeaderMap}

/-! ## Names and values -/

theorem getAll_of_not_application (h : Received request explicit written received)
    {n : HeaderName} (hn : isApplicationHeader n = false) : received.getAll n = [] := by
  obtain ⟨cookieEntry, hentries, -⟩ := h.entries
  rw [getAll_eq_valuesOf, hentries, Assoc.valuesOf_filter_key, hn]
  rfl

theorem getAll_cookie (h : Received request explicit written received) :
    (cookiesOf request = [] ∧ received.getAll cookie = written.getAll cookie) ∨
    (cookiesOf request ≠ [] ∧ written.getAll cookie = [] ∧ ∃ v, received.getAll cookie = [v] ∧
      HeaderValue.fromStr (joinText "; ".toList (cookieParts (cookiesOf request))) = some v) := by
  have happ : isApplicationHeader cookie = true := by decide
  obtain ⟨cookieEntry, hentries, hcases⟩ := h.entries
  rw [getAll_eq_valuesOf received, hentries, Assoc.valuesOf_filter_key, if_pos happ,
    Assoc.valuesOf_append]
  rcases hcases with ⟨hnil, rfl⟩ | ⟨hne, hwritten, v, rfl, hv⟩
  · exact .inl ⟨hnil, by rw [Assoc.valuesOf_nil, List.append_nil, getAll_eq_valuesOf]⟩
  · refine .inr ⟨hne, hwritten, v, ?_, hv⟩
    rw [← getAll_eq_valuesOf, hwritten, Assoc.valuesOf_cons, if_pos rfl]
    rfl

theorem getAll_of_ne_cookie (h : Received request explicit written received) {n : HeaderName}
    (hn : isApplicationHeader n = true) (hne : n ≠ cookie) :
    received.getAll n = written.getAll n := by
  obtain ⟨cookieEntry, hentries, hcases⟩ := h.entries
  rw [getAll_eq_valuesOf, hentries, Assoc.valuesOf_filter_key, if_pos hn, Assoc.valuesOf_append,
    ← getAll_eq_valuesOf]
  rcases hcases with ⟨-, rfl⟩ | ⟨-, -, v, rfl, -⟩
  · simp
  · simp [Assoc.valuesOf_cons, hne.symm]

/-- Whatever was written under a name the server keeps arrives. -/
theorem getAll_of_written (h : Received request explicit written received) {n : HeaderName}
    (hn : isApplicationHeader n = true) (hw : written.getAll n ≠ []) :
    received.getAll n = written.getAll n := by
  by_cases hne : n = cookie
  · subst hne
    rcases h.getAll_cookie with ⟨-, heq⟩ | ⟨-, hnil, -⟩
    · exact heq
    · exact absurd hnil hw
  · exact h.getAll_of_ne_cookie hn hne

theorem mem_writersOf_header {p : HttpParameter} (hp : p ∈ request.operation.parameters)
    (hsrc : p.source = .header) {text : Text}
    (ht : scalarOf (request.arguments.value p.name) = some text) :
    (p.name, request.arguments.value p.name) ∈ writersOf request := by
  refine List.mem_flatMap.mpr ⟨p, hp, ?_⟩
  rw [headerWriters_header hsrc ht]
  exact List.mem_singleton_self _

/-- Where something in `writersOf` comes from. -/
theorem of_mem_writersOf {e : Text × Json} (he : e ∈ writersOf request) :
    textsOf e.2 ≠ [] ∧ ∃ p ∈ request.operation.parameters,
      (p.source = .header ∧ e = (p.name, request.arguments.value p.name)) ∨
      (p.source = .headerMap ∧ e ∈ fieldsOf (request.arguments.value p.name)) := by
  obtain ⟨p, hp, he⟩ := List.mem_flatMap.mp he
  unfold headerWriters at he
  split at he
  · rename_i hsrc
    obtain ⟨he, ht⟩ := List.mem_filter.mp he
    exact ⟨by simpa using ht, p, hp, .inl ⟨hsrc, List.mem_singleton.mp he⟩⟩
  · rename_i hsrc
    obtain ⟨he, ht⟩ := List.mem_filter.mp he
    exact ⟨by simpa using ht, p, hp, .inr ⟨hsrc, he⟩⟩
  all_goals cases he

/-! ## Header parameters -/

section Header

variable {p : HttpParameter}

theorem written_scalar (h : Received request explicit written received)
    (hp : p ∈ request.operation.parameters) (hsrc : p.source = .header) {text : Text}
    (ht : scalarOf (request.arguments.value p.name) = some text) {n : HeaderName}
    (hn : HeaderName.fromBytes p.name = some n) :
    n ∉ runtimeOwned ∧ ∃ v, HeaderValue.fromStr text = some v ∧ written.getAll n = [v] := by
  have hmem := mem_writersOf_header hp hsrc ht
  have hw := h.writes.written _ hmem
  obtain ⟨n', hn', howned, -⟩ := hw.name
  rw [hn, Option.some.injEq] at hn'
  subst hn'
  obtain ⟨v, hv⟩ := hw.values text (by simp [textsOf_scalar ht])
  refine ⟨howned, v, hv, ?_⟩
  rw [h.writes.getAll_of_mem hmem hn, valuesFor, textsOf_scalar ht]
  simp [hv]

/-- A name is free when every Header parameter of that name is `null`. -/
theorem written_null (h : Received request explicit written received) {n : HeaderName}
    (hn : n ∈ explicit) (hnull : ∀ q ∈ request.operation.parameters, q.source = .header →
      HeaderName.fromBytes q.name = some n → request.arguments.value q.name = .null) :
    written.getAll n = [] := by
  rw [h.writes.getAll, h.call_explicit n hn, List.nil_append, List.flatMap_eq_nil_iff]
  intro e he
  rw [if_neg]
  intro hname
  obtain ⟨htexts, q, hq, ⟨hsrc, rfl⟩ | ⟨hsrc, hfield⟩⟩ := of_mem_writersOf he
  · rw [hnull q hq hsrc hname] at htexts
    exact htexts rfl
  · exact ((h.fits q hq).headerMap hsrc e hfield).2 htexts n hname hn

/-- The parameter is read back as it was sent. -/
def HeaderBack (request : RequestEncoding) (received : HeaderMap) (p : HttpParameter) : Prop :=
  ∃ v, headerValue received p.name = .ok v ∧ ReadsBack (request.arguments.value p.name) (some v)

theorem headerBack_scalar_iff (h : Received request explicit written received)
    (hp : p ∈ request.operation.parameters) (hsrc : p.source = .header) {text : Text}
    (ht : scalarOf (request.arguments.value p.name) = some text) :
    HeaderBack request received p ↔
      text.all isVisibleChar = true ∧ HeaderName.fromBytes p.name ≠ some keepAlive := by
  obtain ⟨n, -, hn⟩ := h.named p hp hsrc
  obtain ⟨howned, w, hw, hwritten⟩ := h.written_scalar hp hsrc ht hn
  have hnamed : getAllNamed received p.name = received.getAll n := by
    rw [getAllNamed, hn]
  have hstr := HeaderValue.toStr_fromStr hw
  constructor
  · rintro ⟨v, hv, hback⟩
    have hstring : v = .string text := by
      rcases hback with ⟨hnull, -⟩ | ⟨text', ht', heq⟩
      · rw [hnull] at ht
        cases ht
      · rw [ht, Option.some.injEq] at ht'
        rw [Option.some.inj heq, ht']
    rw [headerValue_eq_ok_iff, hnamed, hstring] at hv
    rcases hv with ⟨-, hv⟩ | ⟨w', text', hone, htext, heq⟩
    · cases hv
    cases heq
    have happ : isApplicationHeader n = true := by
      by_contra hno
      rw [h.getAll_of_not_application (Bool.not_eq_true _ ▸ hno)] at hone
      cases hone
    rw [h.getAll_of_written happ (by simp [hwritten]), hwritten] at hone
    cases hone
    refine ⟨?_, ?_⟩
    · by_contra hvis
      rw [hstr, if_neg hvis] at htext
      cases htext
    · rw [hn, ne_eq, Option.some.injEq]
      exact ((isApplicationHeader_iff n).mp happ).2
  · rintro ⟨hvis, hne⟩
    rw [hn, ne_eq, Option.some.injEq] at hne
    have happ := (isApplicationHeader_iff n).mpr ⟨howned, hne⟩
    refine ⟨.string text, ?_, .inr ⟨text, ht, rfl⟩⟩
    rw [headerValue_eq_ok_iff, hnamed, h.getAll_of_written happ (by simp [hwritten])]
    exact .inr ⟨w, text, hwritten, by rw [hstr, if_pos hvis], rfl⟩

theorem headerBack_null_iff (hv : request.arguments.value p.name = .null) :
    HeaderBack request received p ↔ getAllNamed received p.name = [] := by
  unfold HeaderBack
  constructor
  · rintro ⟨v, h, hback⟩
    have hnull : v = .null := by
      rcases hback with ⟨-, heq⟩ | ⟨text, ht, -⟩
      · exact Option.some.inj heq
      · rw [hv] at ht
        cases ht
    rw [headerValue_eq_ok_iff, hnull] at h
    rcases h with ⟨hnil, -⟩ | ⟨w, text, -, -, heq⟩
    · exact hnil
    · cases heq
  · intro hnil
    exact ⟨.null, headerValue_eq_ok_iff.mpr (.inl ⟨hnil, rfl⟩), .inl ⟨hv, rfl⟩⟩

/-- **Header parameters.** -/
theorem headersBack_iff (h : Received request explicit written received) :
    (∀ p ∈ request.operation.parameters, p.source = .header → HeaderBack request received p) ↔
    (∀ p ∈ request.operation.parameters, p.source = .header → ∀ text,
      scalarOf (request.arguments.value p.name) = some text →
        text.all isVisibleChar = true ∧ HeaderName.fromBytes p.name ≠ some keepAlive) ∧
    (∀ p ∈ request.operation.parameters, p.source = .header →
      ∀ q ∈ request.operation.parameters, q.source = .header →
        HeaderName.fromBytes p.name = HeaderName.fromBytes q.name →
          request.arguments.value p.name = .null → request.arguments.value q.name = .null) ∧
    (∀ p ∈ request.operation.parameters, p.source = .header →
      HeaderName.fromBytes p.name = some cookie → cookiesOf request = []) := by
  constructor
  · intro hback
    have hscalar : ∀ p ∈ request.operation.parameters, p.source = .header → ∀ text,
        scalarOf (request.arguments.value p.name) = some text →
          text.all isVisibleChar = true ∧ HeaderName.fromBytes p.name ≠ some keepAlive :=
      fun p hp hsrc text ht => (h.headerBack_scalar_iff hp hsrc ht).mp (hback p hp hsrc)
    refine ⟨hscalar, ?_, ?_⟩
    · intro p hp hsrc q hq hqs hname hnull
      rcases (h.fits q hq).header hqs with hqv | ⟨text, ht⟩
      · exact hqv
      obtain ⟨n, -, hn⟩ := h.named q hq hqs
      obtain ⟨howned, w, -, hwritten⟩ := h.written_scalar hq hqs ht hn
      have hka := (hscalar q hq hqs text ht).2
      rw [hn, ne_eq, Option.some.injEq] at hka
      have happ := (isApplicationHeader_iff n).mpr ⟨howned, hka⟩
      have hnil := (headerBack_null_iff hnull).mp (hback p hp hsrc)
      rw [getAllNamed, hname, hn] at hnil
      simp only at hnil
      rw [h.getAll_of_written happ (by simp [hwritten]), hwritten] at hnil
      cases hnil
    · intro p hp hsrc hn
      rcases h.getAll_cookie with ⟨hnil, -⟩ | ⟨-, hwritten, v, hone, -⟩
      · exact hnil
      rcases (h.fits p hp).header hsrc with hnull | ⟨text, ht⟩
      · have hnil := (headerBack_null_iff hnull).mp (hback p hp hsrc)
        rw [getAllNamed, hn] at hnil
        simp only at hnil
        rw [hone] at hnil
        cases hnil
      · obtain ⟨-, w, -, hw⟩ := h.written_scalar hp hsrc ht hn
        rw [hwritten] at hw
        cases hw
  · rintro ⟨hscalar, hsame, hcookie⟩ p hp hsrc
    rcases (h.fits p hp).header hsrc with hnull | ⟨text, ht⟩
    · rw [headerBack_null_iff hnull]
      obtain ⟨n, hexp, hn⟩ := h.named p hp hsrc
      have hwritten : written.getAll n = [] := h.written_null hexp
        fun q hq hqs hname => hsame p hp hsrc q hq hqs (hn.trans hname.symm) hnull
      rw [getAllNamed, hn]
      show received.getAll n = []
      by_cases happ : isApplicationHeader n = true
      · by_cases hne : n = cookie
        · subst hne
          rcases h.getAll_cookie with ⟨-, heq⟩ | ⟨hcookies, -⟩
          · rw [heq, hwritten]
          · exact absurd (hcookie p hp hsrc hn) hcookies
        · rw [h.getAll_of_ne_cookie happ hne, hwritten]
      · exact h.getAll_of_not_application (by simpa using happ)
    · exact (h.headerBack_scalar_iff hp hsrc ht).mpr (hscalar p hp hsrc text ht)

end Header

/-! ## Cookie parameters -/

theorem cookiePairsFit (h : Received request explicit written received) :
    CookiePairsFit (cookiesOf request) := by
  have hmem : ∀ e ∈ cookiesOf request, ∃ p ∈ request.operation.parameters, p.source = .cookie ∧
      e.1 = p.name ∧ scalarOf (request.arguments.value p.name) = some e.2 := by
    intro e he
    obtain ⟨p, hp, he⟩ := List.mem_flatMap.mp he
    unfold cookiePairs at he
    split at he
    · rename_i hsrc
      obtain ⟨text, ht, rfl⟩ := List.mem_map.mp he
      exact ⟨p, hp, hsrc, rfl, Option.mem_toList.mp ht⟩
    · cases he
  refine ⟨?_, ?_, ?_⟩
  · intro e he
    obtain ⟨p, -, -, hname, -⟩ := hmem e he
    rw [hname]
    exact p.valid
  · intro e he
    obtain ⟨p, hp, hsrc, -, ht⟩ := hmem e he
    rcases (h.fits p hp).cookie hsrc with hnull | ⟨text, hcookie⟩
    · rw [hnull] at ht
      cases ht
    · obtain ⟨ht', hbytes⟩ := cookieText_spec hcookie
      rw [ht', Option.some.injEq] at ht
      exact ht ▸ hbytes
  · refine List.Nodup.sublist ?_ request.operation.names_nodup
    unfold cookiesOf
    induction request.operation.parameters with
    | nil => simp
    | cons p ps ih =>
      have hone : (cookiePairs request.arguments p).map Prod.fst = [] ∨
          (cookiePairs request.arguments p).map Prod.fst = [p.name] := by
        unfold cookiePairs
        split
        · cases scalarOf (request.arguments.value p.name) <;> simp
        · exact .inl rfl
      rw [List.flatMap_cons, List.map_append, List.map_cons]
      rcases hone with hone | hone
      · rw [hone]
        exact ih.cons p.name
      · rw [hone]
        exact ih.cons_cons p.name

/-- A Cookie parameter is listed with its text, or not at all. -/
theorem get_cookiesOf (h : Received request explicit written received) {p : HttpParameter}
    (hp : p ∈ request.operation.parameters) (hsrc : p.source = .cookie) :
    Assoc.get (cookiesOf request) p.name = scalarOf (request.arguments.value p.name) := by
  have hpairs : cookiePairs request.arguments p =
      (scalarOf (request.arguments.value p.name)).toList.map fun text => (p.name, text) := by
    rw [cookiePairs, if_pos hsrc]
  cases ht : scalarOf (request.arguments.value p.name) with
  | some text =>
    apply Assoc.get_of_mem h.cookiePairsFit.nodup
    exact List.mem_flatMap.mpr ⟨p, hp, by simp [hpairs, ht]⟩
  | none =>
    rw [Assoc.get_eq_none_iff]
    intro hm
    obtain ⟨e, he, hname⟩ := List.mem_map.mp hm
    obtain ⟨q, hq, he⟩ := List.mem_flatMap.mp he
    unfold cookiePairs at he
    split at he
    · obtain ⟨text, htext, rfl⟩ := List.mem_map.mp he
      rw [request.operation.eq_of_name_eq hq hp hname, ht] at htext
      cases htext
    · cases he

theorem cookiesOf_eq_nil_iff (h : Received request explicit written received) :
    cookiesOf request = [] ↔ ∀ p ∈ request.operation.parameters, p.source = .cookie →
      request.arguments.value p.name = .null := by
  constructor
  · intro hnil p hp hsrc
    have hget := h.get_cookiesOf hp hsrc
    rw [hnil, Assoc.get_nil] at hget
    rcases (h.fits p hp).cookie hsrc with hnull | ⟨text, hcookie⟩
    · exact hnull
    · rw [(cookieText_spec hcookie).1] at hget
      cases hget
  · intro hnull
    unfold cookiesOf
    rw [List.flatMap_eq_nil_iff]
    intro p hp
    unfold cookiePairs
    split
    · rename_i hsrc
      rw [hnull p hp hsrc]
      rfl
    · rfl

/-- **Cookie parameters.**  They are lost only to a Cookie header the caller supplied. -/
theorem cookiesBack_iff (h : Received request explicit written received) :
    (∃ cookies, parseCookies received = .ok cookies ∧
      ∀ p ∈ request.operation.parameters, p.source = .cookie →
        ReadsBack (request.arguments.value p.name) (some (textOrNull (Assoc.get cookies p.name)))) ↔
    ∃ cookies, parseCookieHeaders [] (written.getAll cookie) = .ok cookies ∧
      ∀ p ∈ request.operation.parameters, p.source = .cookie → Assoc.get cookies p.name = none := by
  unfold parseCookies
  rcases h.getAll_cookie with ⟨hnil, heq⟩ | ⟨hne, hwritten, v, hone, hv⟩
  · rw [heq]
    apply exists_congr
    intro cookies
    apply and_congr_right
    intro _
    have hnull := h.cookiesOf_eq_nil_iff.mp hnil
    apply forall₃_congr
    intro p hp hsrc
    rw [hnull p hp hsrc]
    cases Assoc.get cookies p.name <;> simp [ReadsBack, textOrNull, scalarOf]
  · rw [hwritten, hone]
    refine iff_of_true ⟨_, parseCookies_joined h.cookiePairsFit hne hv, ?_⟩ ⟨[], rfl, by simp⟩
    intro p hp hsrc
    rw [h.get_cookiesOf hp hsrc]
    apply readsBack_textOrNull
    rcases (h.fits p hp).cookie hsrc with hnull | ⟨text, hcookie⟩
    · exact .inl hnull
    · exact .inr ⟨text, (cookieText_spec hcookie).1⟩

/-! ## The header map -/

section Map

/-- Each text entry of a map stands for the value it was read from. -/
theorem valuesOf_texts {entries : List (HeaderName × HeaderValue)} {texts : List (Text × Text)}
    (h : List.Forall₂ (fun e t => t.1 = e.1.text ∧ e.2.toStr = some t.2) entries texts)
    (n : HeaderName) : (Assoc.valuesOf entries n).map HeaderValue.toStr =
      (Assoc.valuesOf texts n.text).map some := by
  induction h with
  | nil => rfl
  | @cons e t _ _ hr _ ih =>
    have hname : e.1 = n ↔ t.1 = n.text := by
      rw [hr.1]
      constructor
      · rintro rfl
        rfl
      · intro heq
        obtain ⟨⟨text, valid⟩, v⟩ := e
        cases n
        cases heq
        rfl
    rw [Assoc.valuesOf_cons, Assoc.valuesOf_cons]
    by_cases hn : e.1 = n
    · rw [if_pos hn, if_pos (hname.mp hn), List.map_cons, List.map_cons, ih, hr.2]
    · rw [if_neg hn, if_neg (hname.not.mp hn), ih]

theorem headerMap_isOk_iff {headers : HeaderMap} {explicit : List Text} :
    (∃ fields, headerMap headers explicit = .ok fields) ↔
      ∀ e ∈ headers.entries, isMapHeader explicit e.1 = true → ∃ text, e.2.toStr = some text := by
  unfold headerMap
  constructor
  · rintro ⟨fields, hfields⟩ e he hkeep
    obtain ⟨texts, htexts, -⟩ := Except.bind_eq_ok_iff.mp hfields
    obtain ⟨t, -, -, ht⟩ := forall₂_mem_left (headerMapTexts_eq_ok_iff.mp htexts)
      (List.mem_filter.mpr ⟨he, hkeep⟩)
    exact ⟨t.2, ht⟩
  · intro hall
    have hread : ∃ texts, headerMapTexts explicit headers.entries = .ok texts := by
      simp only [headerMapTexts_eq_ok_iff]
      generalize hfilter : headers.entries.filter _ = kept
      have hkept : ∀ e ∈ kept, ∃ text, e.2.toStr = some text := by
        intro e he
        rw [← hfilter, List.mem_filter] at he
        exact hall e he.1 he.2
      clear hfilter
      induction kept with
      | nil => exact ⟨[], .nil⟩
      | cons e kept ih =>
        obtain ⟨⟨text, ht⟩, hkept⟩ := List.forall_mem_cons.mp hkept
        obtain ⟨texts, htexts⟩ := ih hkept
        exact ⟨(e.1.text, text) :: texts, .cons ⟨rfl, ht⟩ htexts⟩
    obtain ⟨texts, htexts⟩ := hread
    exact ⟨_, Except.bind_eq_ok_iff.mpr ⟨texts, htexts, rfl⟩⟩

/-- The sequence the map lists under a name. -/
theorem sequenceAt_headerMap {headers : HeaderMap} {explicit : List Text}
    {fields : List (Text × Json)} (h : headerMap headers explicit = .ok fields) (n : HeaderName) :
    sequenceAt fields n.text =
      if isMapHeader explicit n then (headers.getAll n).map HeaderValue.toStr else [] := by
  unfold headerMap at h
  obtain ⟨texts, htexts, h⟩ := Except.bind_eq_ok_iff.mp h
  cases h
  have hvalues := valuesOf_texts (headerMapTexts_eq_ok_iff.mp htexts) n
  rw [Assoc.valuesOf_filter_key] at hvalues
  have hright : sequenceAt ((Assoc.group texts).map fun e => (e.1, textsValue e.2)) n.text =
      (Assoc.valuesOf texts n.text).map some := by
    unfold sequenceAt
    rw [Assoc.get_map_snd, Assoc.get_group]
    by_cases hnil : Assoc.valuesOf texts n.text = []
    · simp [hnil]
    · simp [hnil, entrySequence_textsValue]
  rw [hright, ← hvalues, getAll_eq_valuesOf]
  split <;> rfl

variable {p : HttpParameter}

/-- The entries of the argument come back with their sequences. -/
def MapBack (request : RequestEncoding) (received : HeaderMap) (explicitTexts : List Text)
    (p : HttpParameter) : Prop :=
  ∃ fields, headerMap received explicitTexts = .ok fields ∧
    ∀ e ∈ fieldsOf (request.arguments.value p.name), textsOf e.2 ≠ [] →
      sequenceAt fields (e.1.map Char.toLower) = entrySequence e.2

/-- An entry that was accepted has the sequence of its texts. -/
theorem entrySequence_of_fits {e : Text × Json} (hfits : HeaderEntryFits explicit e) :
    entrySequence e.2 = (textsOf e.2).map some := by
  have hentry : EntryFits e.2 ∧ NullFree e.2 := by
    rcases hfits.1 with hv | ⟨items, hv, hall⟩
    · refine ⟨.inl hv, ?_⟩
      intro items hitems
      rw [hitems] at hv
      rcases hv with hv | ⟨text, ht⟩
      · cases hv
      · cases ht
    · refine ⟨.inr ⟨items, hv, fun item hitem => .inr (hall item hitem)⟩, ?_⟩
      intro items' hitems' _ hnull
      rw [hv] at hitems'
      cases hitems'
      obtain ⟨text, ht⟩ := hall .null hnull
      cases ht
  exact ((entrySequence_eq_iff hentry.1).mpr hentry.2).symm

theorem valuesFor_toStr {texts : List Text} (h : ∀ text ∈ texts, ∃ v, HeaderValue.fromStr text = some v) :
    (texts.filterMap HeaderValue.fromStr).map HeaderValue.toStr = texts.map some ↔
      ∀ text ∈ texts, text.all isVisibleChar = true := by
  induction texts with
  | nil => simp
  | cons text texts ih =>
    obtain ⟨⟨v, hv⟩, hrest⟩ := List.forall_mem_cons.mp h
    rw [List.filterMap_cons, hv]
    simp only [List.map_cons, List.cons.injEq, ih hrest, List.forall_mem_cons,
      HeaderValue.toStr_fromStr hv]
    by_cases hvis : text.all isVisibleChar = true <;> simp [hvis]

/-- The Header names the server keeps out of the map. -/
def explicitTexts (request : RequestEncoding) : List Text :=
  (namesOf .header request.operation.parameters).map fun name => name.map Char.toLower

theorem isMapHeader_iff (h : Received request explicit written received) (n : HeaderName) :
    isMapHeader (explicitTexts request) n = true ↔ n ∉ explicit ∧ n ≠ cookie := by
  have hexplicit : n.text ∈ explicitTexts request ↔ n ∈ explicit := by
    constructor
    · intro hm
      obtain ⟨name, hname, heq⟩ := List.mem_map.mp hm
      obtain ⟨p, hp, hsrc, rfl⟩ := mem_namesOf.mp hname
      obtain ⟨n', hn', hp'⟩ := h.named p hp hsrc
      have hsame := HeaderName.fromBytes_eq_some_iff.mpr heq.symm
      rw [hp', Option.some.injEq] at hsame
      exact hsame ▸ hn'
    · intro hn
      obtain ⟨p, hp, hsrc, hname⟩ := h.explicit_sound n hn
      exact List.mem_map.mpr ⟨p.name, mem_namesOf.mpr ⟨p, hp, hsrc, rfl⟩,
        (HeaderName.fromBytes_eq_some_iff.mp hname).symm⟩
  simp [isMapHeader, hexplicit]

/-- An entry of the map is written under a name of its own. -/
theorem written_entry (h : Received request explicit written received)
    (hp : p ∈ request.operation.parameters) (hsrc : p.source = .headerMap) {e : Text × Json}
    (he : e ∈ fieldsOf (request.arguments.value p.name)) (ht : textsOf e.2 ≠ []) :
    ∃ n, HeaderName.fromBytes e.1 = some n ∧ n ∉ runtimeOwned ∧ n ∉ explicit ∧
      written.getAll n = valuesFor e.2 ∧
      ∀ text ∈ textsOf e.2, ∃ v, HeaderValue.fromStr text = some v := by
  have hmem : e ∈ writersOf request := by
    refine List.mem_flatMap.mpr ⟨p, hp, ?_⟩
    rw [headerWriters, hsrc]
    exact List.mem_filter.mpr ⟨he, by simpa using ht⟩
  have hw := h.writes.written e hmem
  obtain ⟨n, hn, howned, -⟩ := hw.name
  exact ⟨n, hn, howned, ((h.fits p hp).headerMap hsrc e he).2 ht n hn,
    h.writes.getAll_of_mem hmem hn, hw.values⟩

/-- The map can be read iff what is written for it, and the headers of the call, are text. -/
theorem mapRead_iff (h : Received request explicit written received)
    (hp : p ∈ request.operation.parameters) (hsrc : p.source = .headerMap) :
    (∃ fields, headerMap received (explicitTexts request) = .ok fields) ↔
    (∀ e ∈ fieldsOf (request.arguments.value p.name), textsOf e.2 ≠ [] →
      HeaderName.fromBytes e.1 ≠ some cookie → HeaderName.fromBytes e.1 ≠ some keepAlive →
        ∀ text ∈ textsOf e.2, text.all isVisibleChar = true) ∧
    ∀ e ∈ request.headers.entries, e.1 ≠ cookie → e.1 ≠ keepAlive →
      ∃ text, e.2.toStr = some text := by
  obtain ⟨cookieEntry, hentries, hcookieEntry⟩ := h.entries
  rw [headerMap_isOk_iff]
  constructor
  · intro hall
    refine ⟨?_, ?_⟩
    · intro e he ht hcookie hka
      obtain ⟨n, hn, howned, hexp, hwritten, hvalues⟩ := h.written_entry hp hsrc he ht
      rw [hn, ne_eq, Option.some.injEq] at hcookie hka
      have happ := (isApplicationHeader_iff n).mpr ⟨howned, hka⟩
      have hkeep := (h.isMapHeader_iff n).mpr ⟨hexp, hcookie⟩
      intro text htext
      obtain ⟨v, hv⟩ := hvalues text htext
      have hmem : v ∈ received.getAll n := by
        rw [h.getAll_of_ne_cookie happ hcookie, hwritten]
        exact List.mem_filterMap.mpr ⟨text, htext, hv⟩
      obtain ⟨⟨n', v'⟩, hentry, rfl⟩ := List.mem_map.mp hmem
      obtain ⟨hreceived, hname⟩ := List.mem_filter.mp hentry
      obtain rfl : n' = n := by simpa using hname
      obtain ⟨t, ht⟩ := hall (n', v') hreceived hkeep
      by_contra hvis
      rw [HeaderValue.toStr_fromStr hv, if_neg hvis] at ht
      cases ht
    · intro e he hcookie hka
      have howned : e.1 ∉ runtimeOwned := by
        intro hmem
        have := HeaderMap.mem_getAll he
        rw [h.call_owned e.1 hmem] at this
        cases this
      have hexp : e.1 ∉ explicit := by
        intro hmem
        have := HeaderMap.mem_getAll he
        rw [h.call_explicit e.1 hmem] at this
        cases this
      refine hall e ?_ ((h.isMapHeader_iff e.1).mpr ⟨hexp, hcookie⟩)
      rw [hentries, h.writes.entries, List.mem_filter]
      exact ⟨by simp [he], (isApplicationHeader_iff e.1).mpr ⟨howned, hka⟩⟩
  · rintro ⟨hmap, hcall⟩ e he hkeep
    obtain ⟨hexp, hcookie⟩ := (h.isMapHeader_iff e.1).mp hkeep
    rw [hentries, List.mem_filter] at he
    obtain ⟨he, happ⟩ := he
    have hka := ((isApplicationHeader_iff e.1).mp happ).2
    rw [h.writes.entries] at he
    rcases List.mem_append.mp he with he | he
    · rcases List.mem_append.mp he with he | he
      · exact hcall e he hcookie hka
      · -- the entry was written by an argument, and not by a Header parameter
        obtain ⟨w, hw, he⟩ := List.mem_flatMap.mp he
        unfold entryWrites at he
        split at he
        · rename_i n hn
          obtain ⟨v, hv, rfl⟩ := List.mem_map.mp he
          obtain ⟨text, htext, hfrom⟩ := List.mem_filterMap.mp hv
          obtain ⟨ht, q, hq, ⟨hqs, rfl⟩ | ⟨hqs, hfield⟩⟩ := of_mem_writersOf hw
          · obtain ⟨n', hn', hname⟩ := h.named q hq hqs
            rw [hn, Option.some.injEq] at hname
            exact absurd (hname ▸ hn') hexp
          · rw [request.operation.eq_of_headerMap hq hp hqs hsrc] at hfield
            have hvis := hmap w hfield ht (by simpa [hn] using hcookie) (by simpa [hn] using hka)
              text htext
            exact ⟨text, by rw [HeaderValue.toStr_fromStr hfrom, if_pos hvis]⟩
        · cases he
    · rcases hcookieEntry with ⟨-, rfl⟩ | ⟨-, -, v, rfl, -⟩
      · cases he
      · rw [List.mem_singleton.mp he] at hcookie
        exact absurd rfl hcookie

/-- **The header map.** -/
theorem mapBack_iff (h : Received request explicit written received)
    (hp : p ∈ request.operation.parameters) (hsrc : p.source = .headerMap) :
    MapBack request received (explicitTexts request) p ↔
    (∀ e ∈ fieldsOf (request.arguments.value p.name), textsOf e.2 ≠ [] →
      HeaderName.fromBytes e.1 ≠ some cookie ∧ HeaderName.fromBytes e.1 ≠ some keepAlive ∧
        ∀ text ∈ textsOf e.2, text.all isVisibleChar = true) ∧
    ∀ e ∈ request.headers.entries, e.1 ≠ cookie → e.1 ≠ keepAlive →
      ∃ text, e.2.toStr = some text := by
  constructor
  · rintro ⟨fields, hfields, hback⟩
    obtain ⟨hvis, hcall⟩ := (h.mapRead_iff hp hsrc).mp ⟨fields, hfields⟩
    refine ⟨?_, hcall⟩
    intro e he ht
    obtain ⟨n, hn, -, -, -, -⟩ := h.written_entry hp hsrc he ht
    have hseq := hback e he ht
    rw [← HeaderName.fromBytes_eq_some_iff.mp hn, sequenceAt_headerMap hfields,
      entrySequence_of_fits ((h.fits p hp).headerMap hsrc e he)] at hseq
    have hne : (textsOf e.2).map some ≠ [] := by simpa using ht
    split at hseq
    · rename_i hmap
      have happ : isApplicationHeader n = true := by
        by_contra hno
        rw [h.getAll_of_not_application (by simpa using hno)] at hseq
        exact hne hseq.symm
      have hcookie : HeaderName.fromBytes e.1 ≠ some cookie := by
        rw [hn, ne_eq, Option.some.injEq]
        exact ((h.isMapHeader_iff n).mp hmap).2
      have hka : HeaderName.fromBytes e.1 ≠ some keepAlive := by
        rw [hn, ne_eq, Option.some.injEq]
        exact ((isApplicationHeader_iff n).mp happ).2
      exact ⟨hcookie, hka, hvis e he ht hcookie hka⟩
    · exact absurd hseq.symm hne
  · rintro ⟨hmap, hcall⟩
    obtain ⟨fields, hfields⟩ := (h.mapRead_iff hp hsrc).mpr
      ⟨fun e he ht _ _ => (hmap e he ht).2.2, hcall⟩
    refine ⟨fields, hfields, ?_⟩
    intro e he ht
    obtain ⟨n, hn, howned, hexp, hwritten, hvalues⟩ := h.written_entry hp hsrc he ht
    obtain ⟨hcookie, hka, hvis⟩ := hmap e he ht
    rw [hn, ne_eq, Option.some.injEq] at hcookie hka
    rw [← HeaderName.fromBytes_eq_some_iff.mp hn, sequenceAt_headerMap hfields,
      if_pos ((h.isMapHeader_iff n).mpr ⟨hexp, hcookie⟩),
      h.getAll_of_ne_cookie ((isApplicationHeader_iff n).mpr ⟨howned, hka⟩) hcookie, hwritten,
      valuesFor, (valuesFor_toStr hvalues).mpr hvis,
      entrySequence_of_fits ((h.fits p hp).headerMap hsrc e he)]

end Map

end Received

/-! ## Round trip -/

/-- What the server should read from the headers. -/
structure HeaderRoundTrip (request : RequestEncoding) (out : Arguments) : Prop where
  header : ∀ p ∈ request.operation.parameters, p.source = .header →
    ReadsBack (request.arguments.value p.name) (Assoc.get out p.name)
  cookie : ∀ p ∈ request.operation.parameters, p.source = .cookie →
    ReadsBack (request.arguments.value p.name) (Assoc.get out p.name)
  headerMap : ∀ p ∈ request.operation.parameters, p.source = .headerMap → ∃ fields,
    Assoc.get out p.name = some (.object fields) ∧
      ∀ e ∈ fieldsOf (request.arguments.value p.name), textsOf e.2 ≠ [] →
        sequenceAt fields (e.1.map Char.toLower) = entrySequence e.2

/-- The Cookie headers that do not come from Cookie parameters. -/
def suppliedCookies (request : RequestEncoding) : List HeaderValue :=
  request.headers.getAll cookie ++ (writersOf request).flatMap fun e =>
    if HeaderName.fromBytes e.1 = some cookie then valuesFor e.2 else []

/-- Cookie headers that are lists of pairs under different names, none of them in `declared`. -/
def CookieListFits (values : List HeaderValue) (declared : List Text) : Prop :=
  ∃ (texts : List Text) (pairs : List (Text × Text)),
    values.map HeaderValue.toStr = texts.map some ∧
    List.Forall₂ CookiePiece (texts.flatMap (List.splitOn ';')) pairs ∧
    (pairs.map Prod.fst).Nodup ∧ ∀ name ∈ declared, name ∉ pairs.map Prod.fst

theorem cookieListFits_iff (values : List HeaderValue) (declared : List Text) :
    CookieListFits values declared ↔ ∃ cookies, parseCookieHeaders [] values = .ok cookies ∧
      ∀ name ∈ declared, Assoc.get cookies name = none := by
  have hnil : (([] : List (Text × Text)).map Prod.fst).Nodup := List.nodup_nil
  simp only [parseCookieHeaders_eq_ok_iff hnil, Assoc.get_eq_none_iff]
  constructor
  · rintro ⟨texts, pairs, htexts, hall, hnd, hfree⟩
    exact ⟨pairs, ⟨texts, pairs, htexts, hall, rfl, hnd⟩, hfree⟩
  · rintro ⟨cookies, ⟨texts, pairs, htexts, hall, hout, hnd⟩, hfree⟩
    rw [List.nil_append] at hout
    exact ⟨texts, cookies, htexts, by rwa [hout], hnd, hfree⟩

/-- The arguments and call headers that survive the two sides' different rules. -/
structure HeaderFits (request : RequestEncoding) : Prop where
  /-- Header texts are visible ASCII, and the name is not the one the server strips. -/
  header : ∀ p ∈ request.operation.parameters, p.source = .header → ∀ text,
    scalarOf (request.arguments.value p.name) = some text →
      text.all isVisibleChar = true ∧ HeaderName.fromBytes p.name ≠ some keepAlive
  /-- Header parameters whose names differ in case only are `null` together. -/
  sameName : ∀ p ∈ request.operation.parameters, p.source = .header →
    ∀ q ∈ request.operation.parameters, q.source = .header →
      HeaderName.fromBytes p.name = HeaderName.fromBytes q.name →
        request.arguments.value p.name = .null → request.arguments.value q.name = .null
  /-- Next to a Header parameter named `cookie` every Cookie argument is `null`. -/
  cookieName : ∀ p ∈ request.operation.parameters, p.source = .header →
    HeaderName.fromBytes p.name = some cookie → ∀ q ∈ request.operation.parameters,
      q.source = .cookie → request.arguments.value q.name = .null
  /-- A Cookie header supplied otherwise is well formed and names no Cookie parameter. -/
  cookies : CookieListFits (suppliedCookies request) (namesOf .cookie request.operation.parameters)
  /-- Entries of a HeaderMap are visible ASCII, and neither `cookie` nor `keep-alive`. -/
  headerMap : ∀ p ∈ request.operation.parameters, p.source = .headerMap →
    ∀ e ∈ fieldsOf (request.arguments.value p.name), textsOf e.2 ≠ [] →
      HeaderName.fromBytes e.1 ≠ some Wire.cookie ∧ HeaderName.fromBytes e.1 ≠ some keepAlive ∧
        ∀ text ∈ textsOf e.2, text.all isVisibleChar = true
  /-- Next to a HeaderMap the headers of the call are text. -/
  callHeaders : (∃ p ∈ request.operation.parameters, p.source = .headerMap) →
    ∀ e ∈ request.headers.entries, e.1 ≠ Wire.cookie → e.1 ≠ keepAlive →
      ∃ text, e.2.toStr = some text

theorem headerFits_iff {request : RequestEncoding} {explicit : List HeaderName}
    {written received : HeaderMap} (h : Received request explicit written received) :
    HeaderFits request ↔
      (∀ p ∈ request.operation.parameters, p.source = .header →
        Received.HeaderBack request received p) ∧
      (∃ cookies, parseCookies received = .ok cookies ∧
        ∀ p ∈ request.operation.parameters, p.source = .cookie →
          ReadsBack (request.arguments.value p.name)
            (some (textOrNull (Assoc.get cookies p.name)))) ∧
      ∀ p ∈ request.operation.parameters, p.source = .headerMap →
        Received.MapBack request received (Received.explicitTexts request) p := by
  have hcookies : CookieListFits (suppliedCookies request)
      (namesOf .cookie request.operation.parameters) ↔
      ∃ cookies, parseCookieHeaders [] (written.getAll cookie) = .ok cookies ∧
        ∀ p ∈ request.operation.parameters, p.source = .cookie →
          Assoc.get cookies p.name = none := by
    rw [cookieListFits_iff, suppliedCookies, ← h.writes.getAll]
    simp only [mem_namesOf]
    grind
  rw [h.headersBack_iff, h.cookiesBack_iff, ← hcookies]
  constructor
  · rintro ⟨hheader, hsame, hname, hlist, hmap, hcall⟩
    refine ⟨⟨hheader, hsame, ?_⟩, hlist, ?_⟩
    · intro p hp hsrc hn
      exact h.cookiesOf_eq_nil_iff.mpr (hname p hp hsrc hn)
    · intro p hp hsrc
      exact (h.mapBack_iff hp hsrc).mpr ⟨hmap p hp hsrc, hcall ⟨p, hp, hsrc⟩⟩
  · rintro ⟨⟨hheader, hsame, hname⟩, hlist, hmap⟩
    refine ⟨hheader, hsame, ?_, hlist, ?_, ?_⟩
    · intro p hp hsrc hn
      exact h.cookiesOf_eq_nil_iff.mp (hname p hp hsrc hn)
    · intro p hp hsrc
      exact ((h.mapBack_iff hp hsrc).mp (hmap p hp hsrc)).1
    · rintro ⟨p, hp, hsrc⟩
      exact ((h.mapBack_iff hp hsrc).mp (hmap p hp hsrc)).2

section Decode

variable {parts : RequestParts} {values : List (Text × List Text)} {p : HttpParameter}

theorem decodeParameter_header (hsrc : p.source = .header) :
    decodeParameter parts values p = headerValue parts.headers p.name := by
  unfold decodeParameter
  rw [hsrc]

theorem decodeParameter_cookie (hsrc : p.source = .cookie) :
    decodeParameter parts values p = .ok (textOrNull (Assoc.get parts.cookies p.name)) := by
  unfold decodeParameter
  rw [hsrc]

theorem decodeParameter_headerMap_eq_ok_iff (hsrc : p.source = .headerMap) {v : Json} :
    decodeParameter parts values p = .ok v ↔
      ∃ fields, headerMap parts.headers parts.explicitHeaders = .ok fields ∧ v = .object fields := by
  unfold decodeParameter
  rw [hsrc]
  simp only
  rw [Except.bind_eq_ok_iff]
  simp [eq_comm]

end Decode

/-- Outside headers and cookies every parameter of an encoded request decodes. -/
theorem decodeParameter_isOk_of_encoding {request : RequestEncoding}
    (hfits : ∀ p ∈ request.operation.parameters,
      ArgumentFits (namesOf .query request.operation.parameters) request.arguments p)
    {parts : RequestParts} (hbody : parts.body = sentBody request) {p : HttpParameter}
    (hp : p ∈ request.operation.parameters) (hheader : p.source ≠ .header)
    (hmap : p.source ≠ .headerMap) :
    ∃ v, decodeParameter parts (Assoc.group
      (request.operation.parameters.flatMap (parameterPairs request.arguments))) p = .ok v := by
  cases hsrc : p.source with
  | header => exact absurd hsrc hheader
  | headerMap => exact absurd hsrc hmap
  | query => exact decodeParameter_isOk_of_fits hp hfits (.inl hsrc)
  | queryMap => exact decodeParameter_isOk_of_fits hp hfits (.inr hsrc)
  | body => exact ⟨_, bodyRoundTrip hp (.inl hsrc) hbody _⟩
  | bodyField => exact ⟨_, bodyRoundTrip hp (.inr hsrc) hbody _⟩
  | cookie => exact ⟨_, decodeParameter_cookie hsrc⟩
  | path =>
    unfold decodeParameter
    rw [hsrc]
    exact ⟨_, rfl⟩

/-- **Header and cookie binding.**  The server reads the request, and every Header, Cookie and
HeaderMap argument comes back, exactly when `HeaderFits` holds of the arguments and the headers
of the call. -/
theorem headerRoundTrip_iff {codec : PercentCodec} {request : RequestEncoding}
    {encoded : EncodedRequest} (henc : encodeJsonRequest codec request = .ok encoded)
    {m : MatchedRoute} (hop : m.route.operation = request.operation) {maxQueryPairs : Nat}
    (hmax : (formParse codec ((uriQuery encoded.pathAndQuery).getD [])).length ≤ maxQueryPairs) :
    (∃ out, m.httpArguments codec (uriQuery encoded.pathAndQuery)
        (applicationHeaders encoded.headers) (sentBody request) maxQueryPairs = .ok out ∧
      HeaderRoundTrip request out) ↔ HeaderFits request := by
  obtain ⟨explicit, s, h⟩ := encodeJsonRequest_encoding henc
  obtain ⟨hfits, hparse⟩ := query_of_encoding h
  have hreceived := received_of_encoding h
  rw [headerFits_iff hreceived]
  generalize applicationHeaders encoded.headers = received at hreceived ⊢
  have hok : ∀ out, m.httpArguments codec (uriQuery encoded.pathAndQuery) received
      (sentBody request) maxQueryPairs = .ok out ↔ _ :=
    fun out => MatchedRoute.httpArguments_eq_ok_iff out
  simp only [hparse] at hok hmax
  have hexplicit : ∀ cookies,
      (m.requestParts received cookies (sentBody request)).explicitHeaders =
        Received.explicitTexts request := by
    intro cookies
    unfold MatchedRoute.requestParts Received.explicitTexts
    rw [hop]
  constructor
  · rintro ⟨out, hout, hround⟩
    obtain ⟨-, cookies, hcookies, hall, rfl⟩ := (hok out).mp hout
    -- what is listed for a parameter is what it decodes to
    have hget : ∀ p ∈ request.operation.parameters, ∃ v, Assoc.get
        (m.route.operation.parameters.map fun p => (p.name, decoded
          (m.requestParts received cookies (sentBody request)) (Assoc.group
            (request.operation.parameters.flatMap (parameterPairs request.arguments))) p))
          p.name = some v ∧ decodeParameter (m.requestParts received cookies (sentBody request))
            (Assoc.group (request.operation.parameters.flatMap (parameterPairs request.arguments)))
            p = .ok v := by
      intro p hp
      rw [← hop] at hp
      obtain ⟨v, hv⟩ := hall p hp
      exact ⟨v, by rw [MatchedRoute.get_decoded hp, decoded_of_eq_ok hv], hv⟩
    refine ⟨?_, ⟨cookies, hcookies, ?_⟩, ?_⟩
    · intro p hp hsrc
      obtain ⟨v, hv, hdec⟩ := hget p hp
      have hback := hround.header p hp hsrc
      rw [hv] at hback
      rw [decodeParameter_header hsrc] at hdec
      exact ⟨v, hdec, hback⟩
    · intro p hp hsrc
      obtain ⟨v, hv, hdec⟩ := hget p hp
      have hback := hround.cookie p hp hsrc
      rw [decodeParameter_cookie hsrc] at hdec
      cases hdec
      rwa [hv] at hback
    · intro p hp hsrc
      obtain ⟨v, hv, hdec⟩ := hget p hp
      obtain ⟨fields, hfields, hseq⟩ := hround.headerMap p hp hsrc
      obtain ⟨fields', hmap, rfl⟩ := (decodeParameter_headerMap_eq_ok_iff hsrc).mp hdec
      rw [hv] at hfields
      cases hfields
      exact ⟨fields, hexplicit cookies ▸ hmap, hseq⟩
  · rintro ⟨hheader, ⟨cookies, hcookies, hcookie⟩, hmap⟩
    have hall : ∀ p ∈ m.route.operation.parameters, ∃ v, decodeParameter
        (m.requestParts received cookies (sentBody request)) (Assoc.group
          (request.operation.parameters.flatMap (parameterPairs request.arguments))) p = .ok v := by
      intro p hp
      rw [hop] at hp
      by_cases hh : p.source = .header
      · obtain ⟨v, hv, -⟩ := hheader p hp hh
        exact ⟨v, by rw [decodeParameter_header hh]; exact hv⟩
      · by_cases hm : p.source = .headerMap
        · obtain ⟨fields, hfields, -⟩ := hmap p hp hm
          exact ⟨_, (decodeParameter_headerMap_eq_ok_iff hm).mpr
            ⟨fields, (hexplicit cookies).symm ▸ hfields, rfl⟩⟩
        · exact decodeParameter_isOk_of_encoding hfits rfl hp hh hm
    refine ⟨_, (hok _).mpr ⟨hmax, cookies, hcookies, hall, rfl⟩, ?_, ?_, ?_⟩
    · intro p hp hsrc
      obtain ⟨v, hv, hback⟩ := hheader p hp hsrc
      rw [MatchedRoute.get_decoded (hop ▸ hp), decoded_of_eq_ok (v := v)
        (by rw [decodeParameter_header hsrc]; exact hv)]
      exact hback
    · intro p hp hsrc
      rw [MatchedRoute.get_decoded (hop ▸ hp), decoded_of_eq_ok (decodeParameter_cookie hsrc)]
      exact hcookie p hp hsrc
    · intro p hp hsrc
      obtain ⟨fields, hfields, hseq⟩ := hmap p hp hsrc
      refine ⟨fields, ?_, hseq⟩
      rw [MatchedRoute.get_decoded (hop ▸ hp), decoded_of_eq_ok
        ((decodeParameter_headerMap_eq_ok_iff hsrc).mpr
          ⟨fields, (hexplicit cookies).symm ▸ hfields, rfl⟩)]

def nameParameter : HttpParameter := ⟨"X-Name".toList, .header, .scalar, by decide⟩
def sidParameter : HttpParameter := ⟨"sid".toList, .cookie, .scalar, by decide⟩
def extraParameter : HttpParameter := ⟨"extra".toList, .headerMap, .scalar, by decide⟩

def sessionOperation : HttpOperation :=
  .json .get "/session" [nameParameter, sidParameter, extraParameter] (by decide +kernel)

def sessionRoute : Route := ⟨"session".toList, ⟨0, "session".toList, sessionOperation, by decide⟩⟩

def sessionRequest (name : String) : RequestEncoding where
  operation := sessionOperation
  arguments := [("X-Name".toList, .string name.toList), ("sid".toList, .string "a=1".toList),
    ("extra".toList, .object [("X-Tag".toList, .array [.string "t".toList, .number "7".toList])])]
  headers := .empty
  distinct := by simp [Json.DistinctKeys, Json.DistinctFields, Json.DistinctItems]

theorem headerFits_session : HeaderFits (sessionRequest "a b") := by
  have hmem : ∀ p ∈ (sessionRequest "a b").operation.parameters,
      p = nameParameter ∨ p = sidParameter ∨ p = extraParameter := by
    simp [sessionRequest, sessionOperation, HttpOperation.json]
  have hname : ∀ p ∈ (sessionRequest "a b").operation.parameters, p.source = .header →
      p = nameParameter := by
    intro p hp hsrc
    rcases hmem p hp with rfl | rfl | rfl
    · rfl
    · cases hsrc
    · cases hsrc
  have hextra : ∀ p ∈ (sessionRequest "a b").operation.parameters, p.source = .headerMap →
      p = extraParameter := by
    intro p hp hsrc
    rcases hmem p hp with rfl | rfl | rfl
    · cases hsrc
    · cases hsrc
    · rfl
  refine ⟨?_, ?_, ?_, ?_, ?_, ?_⟩
  · intro p hp hsrc text ht
    rw [hname p hp hsrc] at ht ⊢
    cases ht
    exact ⟨by decide, by decide⟩
  · intro p hp hsrc q hq hqs _ hnull
    rw [hname p hp hsrc] at hnull
    cases hnull
  · intro p hp hsrc hcookie
    rw [hname p hp hsrc] at hcookie
    exact absurd hcookie (by decide)
  · have hnil : suppliedCookies (sessionRequest "a b") = [] := by rfl
    rw [hnil]
    exact ⟨[], [], rfl, .nil, List.nodup_nil, by simp⟩
  · intro p hp hsrc e he _
    rw [hextra p hp hsrc] at he
    have hfields : fieldsOf ((sessionRequest "a b").arguments.value extraParameter.name) =
        [("X-Tag".toList, .array [.string "t".toList, .number "7".toList])] := rfl
    rw [hfields, List.mem_singleton] at he
    rw [he]
    exact ⟨by decide, by decide, by decide⟩
  · rintro - e he
    cases he

theorem headerRoundTrip_iff_session : ∃ encoded out,
    encodeJsonRequest .utf8 (sessionRequest "a b") = .ok encoded ∧
    MatchedRoute.httpArguments .utf8 ⟨sessionRoute, []⟩ (uriQuery encoded.pathAndQuery)
      (applicationHeaders encoded.headers) none 1024 = .ok out ∧
    HeaderRoundTrip (sessionRequest "a b") out := by
  have henc : ∃ encoded, encodeJsonRequest .utf8 (sessionRequest "a b") = .ok encoded ∧
      encoded.pathAndQuery = "/session".toList := ⟨_, rfl, rfl⟩
  obtain ⟨encoded, henc, hpath⟩ := henc
  have hmax : (formParse .utf8 ((uriQuery encoded.pathAndQuery).getD [])).length ≤ 1024 := by
    rw [hpath]
    decide +kernel
  obtain ⟨out, hout, hround⟩ :=
    (headerRoundTrip_iff henc (m := ⟨sessionRoute, []⟩) rfl hmax).mpr headerFits_session
  exact ⟨encoded, out, henc, hout, hround⟩

/-- A header text outside ASCII is sent, and the server cannot read it. -/
theorem headerRoundTrip_nonAscii : ∃ encoded,
    encodeJsonRequest .utf8 (sessionRequest "é") = .ok encoded ∧
    ∀ out, MatchedRoute.httpArguments .utf8 ⟨sessionRoute, []⟩ (uriQuery encoded.pathAndQuery)
      (applicationHeaders encoded.headers) none 1024 ≠ .ok out := by
  refine ⟨_, rfl, ?_⟩
  rintro out ⟨⟩

end Fusen.Binding
