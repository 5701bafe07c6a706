import Fusen.Binding.Path

/-!
# Query binding across the wire

The client writes scalar, repeated and map arguments into one list of pairs; the
server groups the pairs by name and takes the declared names out before it builds the
map.  `parameterPairs` says which pairs a parameter contributes, `query_of_loop` that
the query is their concatenation.  The one thing lost on the way is a `null` inside an
array of a map argument, which the client skips: `queryRoundTrip_iff` shows that
everything else comes back.
-/

namespace Fusen.Binding

open Lib Contract Wire Server

/-! ## What the client writes -/

/-- The texts of a scalar, or of the scalars of an array. -/
def textsOf : Json → List Text
  | .array items => items.filterMap scalarOf
  | v => (scalarOf v).toList

def IsScalar (v : Json) : Prop := ∃ text, scalarOf v = some text

def IsOptional (v : Json) : Prop := v = .null ∨ IsScalar v

/-- What a Query argument may be. -/
def QueryFits (cardinality : HttpParameterCardinality) (v : Json) : Prop :=
  match cardinality with
  | .scalar => IsOptional v
  | .repeated => ∃ items, v = .array items ∧ ∀ item ∈ items, IsScalar item

/-- What an entry of a QueryMap may be. -/
def EntryFits (v : Json) : Prop :=
  IsOptional v ∨ ∃ items, v = .array items ∧ ∀ item ∈ items, IsOptional item

/-- What a QueryMap argument may be, next to Query parameters with the names `explicit`. -/
def MapFits (explicit : List Text) (v : Json) : Prop :=
  v = .null ∨ ∃ fields, v = .object fields ∧
    ∀ e ∈ fields, EntryFits e.2 ∧ (textsOf e.2 ≠ [] → e.1 ∉ explicit)

def fieldsOf : Json → List (Text × Json)
  | .object fields => fields
  | _ => []

def parameterPairs (arguments : Arguments) (p : HttpParameter) : List (Text × Text) :=
  match p.source with
  | .query => (textsOf (arguments.value p.name)).map fun text => (p.name, text)
  | .queryMap => (fieldsOf (arguments.value p.name)).flatMap fun e =>
      (textsOf e.2).map fun text => (e.1, text)
  | .path | .header | .cookie | .bodyField | .body | .headerMap => []

def writePairs (codec : PercentCodec) (pairs : List (Text × Text)) : List Text :=
  pairs.map fun e => queryPair codec e.1 e.2

section Encoders

variable {codec : PercentCodec} {query query' : List Text} {name : Text}

theorem appendScalar_spec {v : Json} (h : appendScalar codec query name v = .ok query') :
    IsOptional v ∧
      query' = query ++ writePairs codec ((scalarOf v).toList.map fun text => (name, text)) := by
  unfold appendScalar at h
  split at h
  · cases h
    exact ⟨.inl rfl, by simp [scalarOf, writePairs]⟩
  · cases h
  · obtain ⟨text, ht, h⟩ := Except.bind_eq_ok_iff.mp h
    rw [scalarText_eq_ok_iff] at ht
    cases h
    exact ⟨.inr ⟨text, ht⟩, by simp [ht, writePairs]⟩

theorem appendItems_spec {items : List Json} (h : appendItems codec query name items = .ok query') :
    (∀ item ∈ items, IsScalar item) ∧
      query' = query ++ writePairs codec ((items.filterMap scalarOf).map fun text => (name, text)) := by
  induction items generalizing query with
  | nil =>
    cases h
    simp [writePairs]
  | cons v items ih =>
    obtain ⟨text, ht, h⟩ := Except.bind_eq_ok_iff.mp h
    rw [scalarText_eq_ok_iff] at ht
    obtain ⟨hall, hquery⟩ := ih h
    refine ⟨List.forall_mem_cons.mpr ⟨⟨text, ht⟩, hall⟩, ?_⟩
    rw [hquery, List.filterMap_cons, ht]
    simp [writePairs]

theorem appendScalars_spec {items : List Json}
    (h : appendScalars codec query name items = .ok query') :
    (∀ item ∈ items, IsOptional item) ∧
      query' = query ++ writePairs codec ((items.filterMap scalarOf).map fun text => (name, text)) := by
  induction items generalizing query with
  | nil =>
    cases h
    simp [writePairs]
  | cons v items ih =>
    obtain ⟨query₁, h₁, h⟩ := Except.bind_eq_ok_iff.mp h
    obtain ⟨hv, rfl⟩ := appendScalar_spec h₁
    obtain ⟨hall, hquery⟩ := ih h
    refine ⟨List.forall_mem_cons.mpr ⟨hv, hall⟩, ?_⟩
    rw [hquery, List.filterMap_cons]
    cases scalarOf v <;> simp [writePairs]

theorem textsOf_optional {v : Json} (h : IsOptional v) : textsOf v = (scalarOf v).toList := by
  rcases h with rfl | ⟨text, ht⟩
  · rfl
  · cases v <;> first | rfl | cases ht

theorem appendQuery_spec {cardinality : HttpParameterCardinality} {v : Json}
    (h : appendQuery codec query name cardinality v = .ok query') :
    QueryFits cardinality v ∧
      query' = query ++ writePairs codec ((textsOf v).map fun text => (name, text)) := by
  unfold appendQuery at h
  cases cardinality with
  | scalar =>
    obtain ⟨hv, hquery⟩ := appendScalar_spec h
    rw [textsOf_optional hv]
    exact ⟨hv, hquery⟩
  | repeated =>
    simp only at h
    split at h
    · rename_i items
      obtain ⟨hall, hquery⟩ := appendItems_spec h
      exact ⟨⟨items, rfl, hall⟩, hquery⟩
    · cases h

theorem appendQueryEntry_spec {explicit : List Text} {v : Json}
    (h : appendQueryEntry codec query explicit name v = .ok query') :
    (EntryFits v ∧ (textsOf v ≠ [] → name ∉ explicit)) ∧
      query' = query ++ writePairs codec ((textsOf v).map fun text => (name, text)) := by
  unfold appendQueryEntry at h
  split at h
  · cases h
    exact ⟨⟨.inl (.inl rfl), fun ht => absurd rfl ht⟩, by simp [textsOf, scalarOf, writePairs]⟩
  · cases h
    exact ⟨⟨.inr ⟨[], rfl, by simp⟩, fun ht => absurd rfl ht⟩, by simp [textsOf, writePairs]⟩
  · split at h
    · cases h
    · rename_i hfree
      rw [Bool.not_eq_true, Bool.or_eq_false_iff] at hfree
      have hnew : name ∉ explicit := by simpa using hfree.1
      split at h
      · obtain ⟨hall, hquery⟩ := appendScalars_spec h
        exact ⟨⟨.inr ⟨_, rfl, hall⟩, fun _ => hnew⟩, hquery⟩
      · obtain ⟨hv, hquery⟩ := appendScalar_spec h
        rw [textsOf_optional hv]
        exact ⟨⟨.inl hv, fun _ => hnew⟩, hquery⟩

theorem appendQueryEntries_spec {explicit : List Text} {fields : List (Text × Json)}
    (h : appendQueryEntries codec query explicit fields = .ok query') :
    (∀ e ∈ fields, EntryFits e.2 ∧ (textsOf e.2 ≠ [] → e.1 ∉ explicit)) ∧
      query' = query ++ writePairs codec
        (fields.flatMap fun e => (textsOf e.2).map fun text => (e.1, text)) := by
  induction fields generalizing query with
  | nil =>
    cases h
    simp [writePairs]
  | cons e fields ih =>
    obtain ⟨query₁, h₁, h⟩ := Except.bind_eq_ok_iff.mp h
    obtain ⟨he, rfl⟩ := appendQueryEntry_spec h₁
    obtain ⟨hall, hquery⟩ := ih h
    refine ⟨List.forall_mem_cons.mpr ⟨he, hall⟩, ?_⟩
    rw [hquery, List.flatMap_cons]
    simp [writePairs]

theorem appendQueryMap_spec {explicit : List Text} {v : Json}
    (h : appendQueryMap codec query v explicit = .ok query') :
    MapFits explicit v ∧ query' = query ++ writePairs codec
      ((fieldsOf v).flatMap fun e => (textsOf e.2).map fun text => (e.1, text)) := by
  unfold appendQueryMap at h
  split at h
  · rename_i fields
    obtain ⟨hall, hquery⟩ := appendQueryEntries_spec h
    exact ⟨.inr ⟨fields, rfl, hall⟩, hquery⟩
  · cases h
    exact ⟨.inl rfl, by simp [fieldsOf, writePairs]⟩
  · cases h

end Encoders

/-- What the encoder has checked of the arguments that go into the query. -/
def ArgumentFits (explicit : List Text) (arguments : Arguments) (p : HttpParameter) : Prop :=
  (p.source = .query → QueryFits p.cardinality (arguments.value p.name)) ∧
    (p.source = .queryMap → MapFits explicit (arguments.value p.name))

/-- **The query of an encoding** is what its parameters contribute, in their order. -/
theorem query_of_loop {codec : PercentCodec} {explicitQuery : List Text}
    {explicitHeaders : List HeaderName} {arguments : Arguments} {ps : List HttpParameter}
    {s₀ s : EncodeState}
    (h : encodeParameters codec explicitQuery explicitHeaders arguments s₀ ps = .ok s)
    (hquery : s₀.query = []) :
    s.query = writePairs codec (ps.flatMap (parameterPairs arguments)) ∧
      ∀ p ∈ ps, ArgumentFits explicitQuery arguments p := by
  let I : List HttpParameter → EncodeState → Prop := fun seen s =>
    s.query = writePairs codec (seen.flatMap (parameterPairs arguments)) ∧
      ∀ p ∈ seen, ArgumentFits explicitQuery arguments p
  have hstep : ∀ seen s p s', I seen s →
      EncodeStep codec explicitQuery explicitHeaders s p (arguments.value p.name) s' →
        I (seen ++ [p]) s' := by
    rintro seen s p s' ⟨hs, hall⟩ hstep
    have hone : s'.query = s.query ++ writePairs codec (parameterPairs arguments p) ∧
        ArgumentFits explicitQuery arguments p := by
      cases hstep
      case query hsrc query hq =>
        obtain ⟨hfits, rfl⟩ := appendQuery_spec hq
        simp [parameterPairs, ArgumentFits, hsrc, hfits]
      case queryMap hsrc query hq =>
        obtain ⟨hfits, rfl⟩ := appendQueryMap_spec hq
        simp [parameterPairs, ArgumentFits, hsrc, hfits]
      all_goals simp_all [parameterPairs, ArgumentFits, writePairs]
    refine ⟨?_, ?_⟩
    · rw [hone.1, hs, List.flatMap_append]
      simp [writePairs]
    · intro q hq
      rcases List.mem_append.mp hq with hq | hq
      · exact hall q hq
      · rw [List.mem_singleton.mp hq]
        exact hone.2
  exact encodeParameters_invariant hstep ⟨by simp [hquery, writePairs], by simp⟩ h

/-! ## What the server parses -/

theorem notMem_queryPair {codec : PercentCodec} {c : Char} (hc : isUnreserved c = false)
    (hp : c ≠ '%') (he : c ≠ '=') (name value : Text) : c ∉ queryPair codec name value := by
  unfold queryPair
  rw [List.mem_append, List.mem_cons]
  rintro (h | h | h)
  · exact codec.notMem_encode name hc hp h
  · exact he h
  · exact codec.notMem_encode value hc hp h

/-- The pairs that were written are the pairs that are parsed. -/
theorem formParse_writePairs (codec : PercentCodec) (pairs : List (Text × Text)) :
    formParse codec (joinText ['&'] (writePairs codec pairs)) = pairs := by
  have hsplit : ((joinText ['&'] (writePairs codec pairs)).splitOn '&').filter (· ≠ []) =
      writePairs codec pairs := by
    cases pairs with
    | nil => rfl
    | cons e pairs =>
      have hne : ∀ e : Text × Text, '&' ∉ queryPair codec e.1 e.2 := fun e =>
        notMem_queryPair (by decide) (by decide) (by decide) e.1 e.2
      have hcons : ∀ t ∈ queryPair codec e.1 e.2 :: writePairs codec pairs, t ≠ [] := by
        intro t ht
        obtain ⟨e, -, rfl⟩ := List.mem_map.mp (show t ∈ writePairs codec (e :: pairs) from ht)
        simp [queryPair]
      show ((queryPair codec e.1 e.2 ++ (writePairs codec pairs).flatMap ('&' :: ·)).splitOn
        '&').filter (· ≠ []) = queryPair codec e.1 e.2 :: writePairs codec pairs
      rw [splitOn_append_flatMap_cons (hne e), List.filter_eq_self]
      · exact fun t ht => by simpa using hcons t ht
      · intro t ht
        obtain ⟨e, -, rfl⟩ := List.mem_map.mp ht
        exact hne e
  unfold formParse
  rw [hsplit, writePairs, List.map_map]
  conv_rhs => rw [← List.map_id pairs]
  apply List.map_congr_left
  rintro ⟨name, value⟩ -
  simp only [Function.comp_apply, queryPair]
  rw [splitOnce_append (codec.notMem_encode name (by decide) (by decide)), Option.getD_some,
    codec.formDecode_encode, codec.formDecode_encode]
  rfl

theorem formParse_joinQuery (codec : PercentCodec) {path : Text} (h : '?' ∉ path)
    (pairs : List (Text × Text)) :
    formParse codec ((uriQuery (joinQuery path (writePairs codec pairs))).getD []) = pairs := by
  rw [uriQuery_joinQuery h]
  split
  · rename_i hnil
    rw [writePairs, List.map_eq_nil_iff] at hnil
    rw [hnil]
    rfl
  · exact formParse_writePairs codec pairs

section Grouped

variable {op : HttpOperation} {arguments : Arguments}

theorem mem_parameterPairs {p : HttpParameter} {name text : Text}
    (h : (name, text) ∈ parameterPairs arguments p) :
    (p.source = .query ∧ name = p.name) ∨ (p.source = .queryMap ∧
      ∃ e ∈ fieldsOf (arguments.value p.name), e.1 = name ∧ text ∈ textsOf e.2) := by
  unfold parameterPairs at h
  split at h
  · rename_i hsrc
    obtain ⟨t, -, he⟩ := List.mem_map.mp h
    cases he
    exact .inl ⟨hsrc, rfl⟩
  · rename_i hsrc
    obtain ⟨e, he, h⟩ := List.mem_flatMap.mp h
    obtain ⟨t, ht, hpair⟩ := List.mem_map.mp h
    cases hpair
    exact .inr ⟨hsrc, e, he, rfl, ht⟩
  all_goals cases h

/-- The names a QueryMap writes are not those of the Query parameters. -/
theorem notMem_of_mem_map {explicit : List Text} {v : Json} (h : MapFits explicit v)
    {e : Text × Json} (he : e ∈ fieldsOf v) {text : Text} (ht : text ∈ textsOf e.2) :
    e.1 ∉ explicit := by
  rcases h with rfl | ⟨fields, rfl, hall⟩
  · cases he
  · exact (hall e he).2 (List.ne_nil_of_mem ht)

/-- A Query parameter finds its own texts under its name, and nothing else. -/
theorem valuesOf_query
    (hfits : ∀ p ∈ op.parameters, ArgumentFits (namesOf .query op.parameters) arguments p)
    {p : HttpParameter} (hp : p ∈ op.parameters) (hsrc : p.source = .query) :
    Assoc.valuesOf (op.parameters.flatMap (parameterPairs arguments)) p.name =
      textsOf (arguments.value p.name) := by
  have hname : p.name ∈ namesOf .query op.parameters := mem_namesOf.mpr ⟨p, hp, hsrc, rfl⟩
  rw [Assoc.valuesOf_flatMap, Assoc.flatMap_eq_of_unique op.nodup hp]
  · rw [parameterPairs, hsrc]
    simp only
    rw [Assoc.valuesOf_map_const, if_pos rfl]
  · intro q hq hne
    rw [Assoc.valuesOf_eq_nil_iff]
    intro hmem
    obtain ⟨⟨name, text⟩, hpair, rfl⟩ := List.mem_map.mp hmem
    rcases mem_parameterPairs hpair with ⟨-, he⟩ | ⟨hqs, e, he, heq, ht⟩
    · exact hne (op.eq_of_name_eq hq hp he.symm)
    · apply notMem_of_mem_map ((hfits q hq).2 hqs) he ht
      rw [heq]
      exact hname

/-- A name no Query parameter has belongs to the map. -/
theorem valuesOf_queryMap {p : HttpParameter} (hp : p ∈ op.parameters) (hsrc : p.source = .queryMap)
    (hd : (fieldsOf (arguments.value p.name)).map Prod.fst |>.Nodup) {name : Text}
    (hname : name ∉ namesOf .query op.parameters) :
    Assoc.valuesOf (op.parameters.flatMap (parameterPairs arguments)) name =
      ((Assoc.get (fieldsOf (arguments.value p.name)) name).map textsOf).getD [] := by
  rw [Assoc.valuesOf_flatMap, Assoc.flatMap_eq_of_unique op.nodup hp]
  · rw [parameterPairs, hsrc]
    exact Assoc.valuesOf_flatMap_entries textsOf hd name
  · intro q hq hne
    rw [Assoc.valuesOf_eq_nil_iff]
    intro hmem
    obtain ⟨⟨n, text⟩, hpair, rfl⟩ := List.mem_map.mp hmem
    rcases mem_parameterPairs hpair with ⟨hqs, he⟩ | ⟨hqs, -⟩
    · exact hname (mem_namesOf.mpr ⟨q, hq, hqs, he.symm⟩)
    · exact hne (op.eq_of_queryMap hq hp hqs hsrc)

end Grouped

/-! ## Round trip -/

/-- The value sequence of a map entry: `null` and the empty array are no entry, an array of one
is its element. -/
def entrySequence : Json → List (Option Text)
  | .null | .array [] | .array [.null] => []
  | .array items => items.map scalarOf
  | v => [scalarOf v]

def sequenceAt (fields : List (Text × Json)) (name : Text) : List (Option Text) :=
  ((Assoc.get fields name).map entrySequence).getD []

theorem entrySequence_textsValue (texts : List Text) :
    entrySequence (textsValue texts) = texts.map some := by
  match texts with
  | [] => rfl
  | [_] => rfl
  | _ :: _ :: _ => simp [textsValue, entrySequence, scalarOf, Function.comp_def]

/-- No array of two or more values contains `null`. -/
def NullFree (v : Json) : Prop :=
  ∀ items, v = .array items → 2 ≤ items.length → .null ∉ items

theorem map_eq_map_some_filterMap_iff {α β : Type*} (f : α → Option β) (l : List α) :
    l.map f = (l.filterMap f).map some ↔ ∀ x ∈ l, f x ≠ none := by
  induction l with
  | nil => simp
  | cons x l ih =>
    rw [List.map_cons, List.filterMap_cons, List.forall_mem_cons]
    cases hx : f x with
    | some b => simp [ih]
    | none =>
      simp only [ne_eq, not_true_eq_false, false_and, iff_false]
      intro he
      have hmem : none ∈ (l.filterMap f).map some := he ▸ List.mem_cons_self ..
      simp at hmem

theorem scalarOf_eq_none_iff {v : Json} (h : IsOptional v) : scalarOf v = none ↔ v = .null := by
  rcases h with rfl | ⟨text, ht⟩
  · simp [scalarOf]
  · rw [ht]
    simp only [reduceCtorEq, false_iff]
    rintro rfl
    cases ht

/-- An entry keeps its sequence iff it is free of nulls. -/
theorem entrySequence_eq_iff {v : Json} (h : EntryFits v) :
    (textsOf v).map some = entrySequence v ↔ NullFree v := by
  rcases h with hv | ⟨items, rfl, hall⟩
  · have hfree : NullFree v := by
      rintro items rfl
      rcases hv with hv | ⟨text, ht⟩
      · cases hv
      · cases ht
    have heq : (textsOf v).map some = entrySequence v := by
      rcases hv with rfl | ⟨text, ht⟩
      · rfl
      · cases v <;> cases ht <;> rfl
    exact iff_of_true heq hfree
  · match items, hall with
    | [], _ => exact iff_of_true rfl (by rintro _ ⟨⟩ hlen; simp at hlen)
    | [v], hall =>
      have hv := hall v (List.mem_singleton_self v)
      refine iff_of_true ?_ (by rintro _ ⟨⟩ hlen; simp at hlen)
      rcases hv with rfl | ⟨text, ht⟩
      · rfl
      · cases v <;> cases ht <;> rfl
    | u :: v :: items, hall =>
      have hmany : entrySequence (.array (u :: v :: items)) = (u :: v :: items).map scalarOf := by
        cases u <;> rfl
      rw [hmany, eq_comm]
      show List.map scalarOf _ = List.map some (List.filterMap scalarOf _) ↔ _
      rw [map_eq_map_some_filterMap_iff]
      constructor
      · rintro hne _ ⟨⟩ - hnull
        exact hne .null hnull rfl
      · intro hfree w hw hnone
        have hnull := (scalarOf_eq_none_iff (hall w hw)).mp hnone
        exact hfree _ rfl (by simp) (hnull ▸ hw)

/-- A scalar argument is read as its text, and `null` as `null`. -/
def ReadsBack (sent : Json) (read : Option Json) : Prop :=
  (sent = .null ∧ read = some .null) ∨
    ∃ text, scalarOf sent = some text ∧ read = some (.string text)

theorem readsBack_textOrNull {v : Json} (h : IsOptional v) :
    ReadsBack v (some (textOrNull (scalarOf v))) := by
  rcases h with hnull | ⟨text, ht⟩
  · rw [hnull]
    exact .inl ⟨rfl, rfl⟩
  · rw [ht]
    exact .inr ⟨text, ht, rfl⟩

/-- What the server should read from the query. -/
structure QueryRoundTrip (request : RequestEncoding) (out : Arguments) : Prop where
  scalar : ∀ p ∈ request.operation.parameters, p.source = .query → p.cardinality = .scalar →
    ReadsBack (request.arguments.value p.name) (Assoc.get out p.name)
  repeated : ∀ p ∈ request.operation.parameters, p.source = .query → p.cardinality = .repeated →
    ∃ items, ∃ texts : List Text, request.arguments.value p.name = .array items ∧
      items.map scalarOf = texts.map some ∧
      Assoc.get out p.name = some (.array (texts.map .string))
  map : ∀ p ∈ request.operation.parameters, p.source = .queryMap → ∃ fields,
    Assoc.get out p.name = some (.object fields) ∧ (fields.map Prod.fst).Nodup ∧
      ∀ name, sequenceAt fields name =
        sequenceAt (fieldsOf (request.arguments.value p.name)) name

/-- Names inside a value of the request do not repeat. -/
theorem nodup_fieldsOf (request : RequestEncoding) (name : Text) :
    ((fieldsOf (request.arguments.value name)).map Prod.fst).Nodup := by
  unfold Arguments.value
  cases h : Assoc.get request.arguments name with
  | none => exact List.nodup_nil
  | some v =>
    have hd := request.distinct _ (Assoc.mem_of_get h)
    rw [Option.getD_some]
    cases v with
    | object fields =>
      rw [Json.DistinctKeys] at hd
      exact hd.1
    | null | bool | number | string | array => exact List.nodup_nil

section Decoded

variable {codec : PercentCodec} {request : RequestEncoding} {pairs : List (Text × Text)}
  {parts : RequestParts} {p : HttpParameter}

theorem decodeParameter_query (hsrc : p.source = .query) :
    decodeParameter parts (Assoc.group pairs) p =
      decodeQuery p (Assoc.valuesOf pairs p.name) := by
  unfold decodeParameter
  rw [hsrc]
  simp only
  rw [Assoc.getD_get_group]

theorem decodeQuery_scalar (hcard : p.cardinality = .scalar) (text : Option Text) :
    decodeQuery p text.toList = .ok (textOrNull text) := by
  unfold decodeQuery
  rw [hcard]
  cases text <;> rfl

theorem decodeQuery_repeated (hcard : p.cardinality = .repeated) (texts : List Text) :
    decodeQuery p texts = .ok (.array (texts.map .string)) := by
  unfold decodeQuery
  rw [hcard]

/-- A declared Query parameter always decodes. -/
theorem decodeQuery_of_fits {v : Json} (hfits : QueryFits p.cardinality v) :
    ∃ w, decodeQuery p (textsOf v) = .ok w := by
  cases hcard : p.cardinality with
  | scalar =>
    rw [hcard] at hfits
    exact ⟨_, by rw [textsOf_optional hfits, decodeQuery_scalar hcard]⟩
  | repeated => exact ⟨_, decodeQuery_repeated hcard _⟩

/-- The names the decoded map lists, with their sequences. -/
theorem sequenceAt_queryMap (explicit : List Text) (name : Text) :
    sequenceAt (queryMap (Assoc.group pairs) explicit) name =
      if name ∈ explicit then [] else (Assoc.valuesOf pairs name).map some := by
  unfold sequenceAt queryMap
  rw [Assoc.get_map_snd, Assoc.get_filter_key (fun k => !explicit.contains k), Assoc.get_group]
  by_cases hexp : name ∈ explicit
  · simp [hexp]
  · by_cases hnil : Assoc.valuesOf pairs name = []
    · simp [hexp, hnil]
    · simp [hexp, hnil, entrySequence_textsValue]

theorem nodup_queryMap (explicit : List Text) :
    ((queryMap (Assoc.group pairs) explicit).map Prod.fst).Nodup := by
  unfold queryMap
  rw [List.map_map]
  exact (Assoc.nodup_keys_group pairs).sublist (List.filter_sublist.map Prod.fst)

end Decoded

/-- The pairs the server parses, and what the encoder has checked of the arguments. -/
theorem query_of_encoding {codec : PercentCodec} {request : RequestEncoding}
    {encoded : EncodedRequest} {explicitHeaders : List HeaderName} {s : EncodeState}
    (h : Encoding codec request encoded explicitHeaders s) :
    (∀ p ∈ request.operation.parameters,
      ArgumentFits (namesOf .query request.operation.parameters) request.arguments p) ∧
    formParse codec ((uriQuery encoded.pathAndQuery).getD []) =
      request.operation.parameters.flatMap (parameterPairs request.arguments) := by
  obtain ⟨hquery, hfits⟩ := query_of_loop h.loop rfl
  have hpath := (path_of_loop h.loop rfl).1
  refine ⟨hfits, ?_⟩
  rw [h.pathAndQuery, hpath, hquery]
  exact formParse_joinQuery codec query_notMem_path _

/-- Everything but the query can be read. -/
def ReadableBesidesQuery (m : MatchedRoute) (headers : HeaderMap) (body : Option Json) : Prop :=
  ∃ cookies, parseCookies headers = .ok cookies ∧
    ∀ p ∈ m.route.operation.parameters, p.source ≠ .query → p.source ≠ .queryMap →
      ∃ v, decodeParameter (m.requestParts headers cookies body) [] p = .ok v

theorem decodeParameter_of_not_query {parts : RequestParts} {p : HttpParameter}
    (hq : p.source ≠ .query) (hm : p.source ≠ .queryMap) (values values' : List (Text × List Text)) :
    decodeParameter parts values p = decodeParameter parts values' p := by
  unfold decodeParameter
  cases h : p.source <;> simp_all

section Reading

variable {request : RequestEncoding} {parts : RequestParts} {out : Arguments}

/-- Every Query and QueryMap parameter decodes from the pairs of the encoding. -/
theorem decodeParameter_isOk_of_fits {p : HttpParameter} (hp : p ∈ request.operation.parameters)
    (hfits : ∀ p ∈ request.operation.parameters,
      ArgumentFits (namesOf .query request.operation.parameters) request.arguments p)
    (hsrc : p.source = .query ∨ p.source = .queryMap) :
    ∃ v, decodeParameter parts
      (Assoc.group (request.operation.parameters.flatMap (parameterPairs request.arguments))) p =
        .ok v := by
  rcases hsrc with hsrc | hsrc
  · rw [decodeParameter_query hsrc, valuesOf_query hfits hp hsrc]
    exact decodeQuery_of_fits ((hfits p hp).1 hsrc)
  · unfold decodeParameter
    rw [hsrc]
    exact ⟨_, rfl⟩

/-- The map is read back iff its entries are free of nulls. -/
theorem sequenceAt_decoded_iff {p : HttpParameter} (hp : p ∈ request.operation.parameters)
    (hsrc : p.source = .queryMap)
    (hfits : MapFits (namesOf .query request.operation.parameters)
      (request.arguments.value p.name)) :
    (∀ name, sequenceAt (queryMap (Assoc.group
        (request.operation.parameters.flatMap (parameterPairs request.arguments)))
        (namesOf .query request.operation.parameters)) name =
      sequenceAt (fieldsOf (request.arguments.value p.name)) name) ↔
    ∀ e ∈ fieldsOf (request.arguments.value p.name), NullFree e.2 := by
  have hd := nodup_fieldsOf request p.name
  have hentries : ∀ e ∈ fieldsOf (request.arguments.value p.name), EntryFits e.2 ∧
      (textsOf e.2 ≠ [] → e.1 ∉ namesOf .query request.operation.parameters) := by
    rcases hfits with hv | ⟨fields, hv, hall⟩
    · rw [hv]
      simp [fieldsOf]
    · rw [hv]
      exact hall
  -- an entry under a declared name is empty, so both sides skip it
  have hside : ∀ name, sequenceAt (queryMap (Assoc.group
      (request.operation.parameters.flatMap (parameterPairs request.arguments)))
      (namesOf .query request.operation.parameters)) name =
      (((Assoc.get (fieldsOf (request.arguments.value p.name)) name).map textsOf).getD []).map
        some := by
    intro name
    rw [sequenceAt_queryMap]
    split
    · rename_i hname
      cases hget : Assoc.get (fieldsOf (request.arguments.value p.name)) name with
      | none => rfl
      | some v =>
        by_contra hne
        have hmem := Assoc.mem_of_get hget
        exact (hentries _ hmem).2 (fun hnil => hne (by simp [hnil])) hname
    · rename_i hname
      rw [valuesOf_queryMap hp hsrc hd hname]
  constructor
  · intro h e he
    have := h e.1
    rw [hside, sequenceAt, Assoc.get_of_mem hd he] at this
    exact (entrySequence_eq_iff (hentries e he).1).mp this
  · intro h name
    rw [hside, sequenceAt]
    cases hget : Assoc.get (fieldsOf (request.arguments.value p.name)) name with
    | none => rfl
    | some v =>
      have hmem := Assoc.mem_of_get hget
      exact (entrySequence_eq_iff (hentries _ hmem).1).mpr (h _ hmem)

theorem queryRoundTrip_of_decoded
    (hfits : ∀ p ∈ request.operation.parameters,
      ArgumentFits (namesOf .query request.operation.parameters) request.arguments p)
    (hexp : parts.explicitQuery = namesOf .query request.operation.parameters)
    (hget : ∀ p ∈ request.operation.parameters, Assoc.get out p.name = some (decoded parts
      (Assoc.group (request.operation.parameters.flatMap (parameterPairs request.arguments))) p)) :
    QueryRoundTrip request out ↔ ∀ p ∈ request.operation.parameters, p.source = .queryMap →
      ∀ e ∈ fieldsOf (request.arguments.value p.name), NullFree e.2 := by
  have hquery : ∀ p ∈ request.operation.parameters, p.source = .query →
      decodeParameter parts (Assoc.group (request.operation.parameters.flatMap
        (parameterPairs request.arguments))) p =
        decodeQuery p (textsOf (request.arguments.value p.name)) := by
    intro p hp hsrc
    rw [decodeParameter_query hsrc, valuesOf_query hfits hp hsrc]
  have hmap : ∀ p ∈ request.operation.parameters, p.source = .queryMap →
      Assoc.get out p.name = some (.object (queryMap (Assoc.group
        (request.operation.parameters.flatMap (parameterPairs request.arguments)))
        (namesOf .query request.operation.parameters))) := by
    intro p hp hsrc
    rw [hget p hp, decoded, decodeParameter, hsrc, ← hexp]
    rfl
  constructor
  · intro hround p hp hsrc
    obtain ⟨fields, hout, -, hseq⟩ := hround.map p hp hsrc
    rw [hmap p hp hsrc] at hout
    cases hout
    exact (sequenceAt_decoded_iff hp hsrc ((hfits p hp).2 hsrc)).mp hseq
  · intro hfree
    refine ⟨?_, ?_, ?_⟩
    · intro p hp hsrc hcard
      have hfit := (hfits p hp).1 hsrc
      rw [hcard] at hfit
      rw [hget p hp, decoded, hquery p hp hsrc, textsOf_optional hfit, decodeQuery_scalar hcard]
      exact readsBack_textOrNull hfit
    · intro p hp hsrc hcard
      have hfit := (hfits p hp).1 hsrc
      rw [hcard] at hfit
      obtain ⟨items, hitems, hall⟩ := hfit
      refine ⟨items, items.filterMap scalarOf, hitems, ?_, ?_⟩
      · rw [map_eq_map_some_filterMap_iff]
        intro item hitem hnone
        obtain ⟨text, ht⟩ := hall item hitem
        rw [ht] at hnone
        cases hnone
      · rw [hget p hp, decoded, hquery p hp hsrc, decodeQuery_repeated hcard, hitems]
        rfl
    · intro p hp hsrc
      refine ⟨_, hmap p hp hsrc, nodup_queryMap _, ?_⟩
      exact (sequenceAt_decoded_iff hp hsrc ((hfits p hp).2 hsrc)).mpr (hfree p hp hsrc)

end Reading

/-- **Query binding.**  The query never makes a request unreadable, and what is read agrees with
what was encoded exactly when no array in a map argument mixes `null` with other values. -/
theorem queryRoundTrip_iff {codec : PercentCodec} {request : RequestEncoding}
    {encoded : EncodedRequest} (henc : encodeJsonRequest codec request = .ok encoded)
    {m : MatchedRoute} (hop : m.route.operation = request.operation) {maxQueryPairs : Nat}
    (hmax : (formParse codec ((uriQuery encoded.pathAndQuery).getD [])).length ≤ maxQueryPairs)
    (headers : HeaderMap) (body : Option Json) :
    ((∃ out, m.httpArguments codec (uriQuery encoded.pathAndQuery) headers body maxQueryPairs =
        .ok out) ↔ ReadableBesidesQuery m headers body) ∧
    ∀ out, m.httpArguments codec (uriQuery encoded.pathAndQuery) headers body maxQueryPairs =
        .ok out →
      (QueryRoundTrip request out ↔ ∀ p ∈ request.operation.parameters, p.source = .queryMap →
        ∀ e ∈ fieldsOf (request.arguments.value p.name), NullFree e.2) := by
  obtain ⟨explicitHeaders, s, h⟩ := encodeJsonRequest_encoding henc
  obtain ⟨hfits, hparse⟩ := query_of_encoding h
  have hok : ∀ out, m.httpArguments codec (uriQuery encoded.pathAndQuery) headers body
      maxQueryPairs = .ok out ↔ _ := fun out => MatchedRoute.httpArguments_eq_ok_iff out
  simp only [hparse, hop] at hok hmax
  simp only [hok, ReadableBesidesQuery, hop]
  constructor
  · constructor
    · rintro ⟨out, -, cookies, hcookies, hall, -⟩
      refine ⟨cookies, hcookies, fun p hp hq hm => ?_⟩
      rw [decodeParameter_of_not_query hq hm _ _]
      exact hall p hp
    · rintro ⟨cookies, hcookies, hall⟩
      refine ⟨_, hmax, cookies, hcookies, fun p hp => ?_, rfl⟩
      by_cases hsrc : p.source = .query ∨ p.source = .queryMap
      · exact decodeParameter_isOk_of_fits hp hfits hsrc
      · rw [not_or] at hsrc
        rw [decodeParameter_of_not_query hsrc.1 hsrc.2 _ []]
        exact hall p hp hsrc.1 hsrc.2
  · rintro out ⟨-, cookies, -, -, rfl⟩
    have hexp : (m.requestParts headers cookies body).explicitQuery =
        namesOf .query request.operation.parameters :=
      congrArg (fun op : HttpOperation => namesOf .query op.parameters) hop
    apply queryRoundTrip_of_decoded hfits hexp
    · intro p hp
      rw [← hop] at hp ⊢
      exact MatchedRoute.get_decoded hp _

def filters : HttpParameter := ⟨"filters".toList, .queryMap, .scalar, by decide⟩

def searchOperation : HttpOperation :=
  .json .get "/search" [⟨"page".toList, .query, .scalar, by decide⟩, filters] (by decide +kernel)

def searchRoute : Route := ⟨"search".toList, ⟨0, "search".toList, searchOperation, by decide⟩⟩

def searchRequest (items : List Json) (h : Json.DistinctItems items) : RequestEncoding where
  operation := searchOperation
  arguments := [("page".toList, .number "2".toList),
    ("filters".toList, .object [("tag".toList, .array items)])]
  headers := .empty
  distinct := by simp [Json.DistinctKeys, Json.DistinctFields, h]

def tagsRequest : RequestEncoding :=
  searchRequest [.string "a&b".toList, .string "c".toList]
    (by simp [Json.DistinctItems, Json.DistinctKeys])

theorem queryRoundTrip_iff_tags : ∃ encoded out,
    encodeJsonRequest .utf8 tagsRequest = .ok encoded ∧
    MatchedRoute.httpArguments .utf8 ⟨searchRoute, []⟩ (uriQuery encoded.pathAndQuery) .empty none
      1024 = .ok out ∧ QueryRoundTrip tagsRequest out := by
  have henc : ∃ encoded, encodeJsonRequest .utf8 tagsRequest = .ok encoded ∧
      encoded.pathAndQuery = "/search?page=2&tag=a%26b&tag=c".toList := ⟨_, rfl, rfl⟩
  obtain ⟨encoded, henc, hpath⟩ := henc
  have hmax : (formParse .utf8 ((uriQuery encoded.pathAndQuery).getD [])).length ≤ 1024 := by
    rw [hpath]
    decide +kernel
  have hiff := queryRoundTrip_iff henc (m := ⟨searchRoute, []⟩) rfl hmax .empty none
  have hout : ∃ out, MatchedRoute.httpArguments .utf8 ⟨searchRoute, []⟩
      (uriQuery encoded.pathAndQuery) .empty none 1024 = .ok out := by
    rw [hpath]
    exact ⟨_, rfl⟩
  obtain ⟨out, hout⟩ := hout
  refine ⟨encoded, out, henc, hout, (hiff.2 out hout).mpr ?_⟩
  intro p hp hsrc e he items hitems _ hnull
  have hmem : p = ⟨"page".toList, .query, .scalar, by decide⟩ ∨ p = filters := by
    simpa [tagsRequest, searchRequest, searchOperation, HttpOperation.json] using hp
  rcases hmem with rfl | rfl
  · cases hsrc
  · have hfields : fieldsOf (tagsRequest.arguments.value filters.name) =
        [("tag".toList, .array [.string "a&b".toList, .string "c".toList])] := rfl
    rw [hfields, List.mem_singleton] at he
    subst he
    cases hitems
    simp at hnull
def mixedRequest : RequestEncoding :=
  searchRequest [.null, .string "a".toList] (by simp [Json.DistinctItems, Json.DistinctKeys])

/-- The `null` before `a` is dropped, and the array of two arrives as one text. -/
theorem queryRoundTrip_null : ∃ encoded out,
    encodeJsonRequest .utf8 mixedRequest = .ok encoded ∧
    encoded.pathAndQuery = "/search?page=2&tag=a".toList ∧
    MatchedRoute.httpArguments .utf8 ⟨searchRoute, []⟩ (uriQuery encoded.pathAndQuery) .empty none
      1024 = .ok out ∧ ¬ QueryRoundTrip mixedRequest out := by
  refine ⟨_, _, rfl, rfl, rfl, ?_⟩
  intro h
  obtain ⟨fields, hget, -, hseq⟩ := h.map filters (by simp [mixedRequest, searchRequest,
    searchOperation, HttpOperation.json]) rfl
  cases hget
  exact absurd (hseq "tag".toList) (by decide)

end Fusen.Binding
