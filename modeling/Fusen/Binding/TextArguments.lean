import Fusen.Binding.Query
import Fusen.Lib.Decimal
import Mathlib.Algebra.Group.Int.Defs

/-!
# Typed text arguments (`interface.rs`)

A typed argument becomes JSON on the client and goes as text through a path, a query, a
header or a cookie; the server reads the text back, first as it stands and then as the
JSON scalar it may spell.  `text_argument_roundTrip`: the value comes back, whatever its
text looks like, and `None` has no text in a path or inside a list.
-/

namespace Fusen.Binding

open Lib Contract Wire Server

/-! ## Types -/

inductive IntegerType
  | i8 | i16 | i32 | i64 | u8 | u16 | u32 | u64
deriving DecidableEq, Repr

namespace IntegerType

def bits : IntegerType → Nat
  | .i8 | .u8 => 8
  | .i16 | .u16 => 16
  | .i32 | .u32 => 32
  | .i64 | .u64 => 64

def signed : IntegerType → Bool
  | .i8 | .i16 | .i32 | .i64 => true
  | .u8 | .u16 | .u32 | .u64 => false

def min (t : IntegerType) : Int := if t.signed then -2 ^ (t.bits - 1) else 0

/-- The first integer above the type. -/
def bound (t : IntegerType) : Int := if t.signed then 2 ^ (t.bits - 1) else 2 ^ t.bits

theorem within (t : IntegerType) : -2 ^ 63 ≤ t.min ∧ t.bound ≤ 2 ^ 64 := by
  cases t <;> decide

end IntegerType

inductive ScalarType
  | string
  | bool
  | integer (t : IntegerType)
deriving DecidableEq

/-- A scalar or an `Option` of one. -/
inductive ElementType
  | required (s : ScalarType)
  | optional (s : ScalarType)
deriving DecidableEq

/-- The type of a scalar parameter, or the `Vec` of a repeated one. -/
inductive ArgumentType
  | single (e : ElementType)
  | vec (e : ElementType)
deriving DecidableEq

@[reducible] def ScalarType.Value : ScalarType → Type
  | .string => Text
  | .bool => Bool
  | .integer t => { n : Int // t.min ≤ n ∧ n < t.bound }

@[reducible] def ElementType.Value : ElementType → Type
  | .required s => s.Value
  | .optional s => Option s.Value

@[reducible] def ArgumentType.Value : ArgumentType → Type
  | .single e => e.Value
  | .vec e => List e.Value

def ElementType.scalar : ElementType → ScalarType
  | .required s | .optional s => s

def ArgumentType.scalar : ArgumentType → ScalarType
  | .single e | .vec e => e.scalar

/-! ## The JSON of a value -/

def boolText (b : Bool) : Text := if b then "true".toList else "false".toList

def ScalarType.json : (s : ScalarType) → s.Value → Json
  | .string, v => .string v
  | .bool, v => .bool v
  | .integer _, v => .number (integerText v.1)

def ElementType.json : (e : ElementType) → e.Value → Json
  | .required s, v => s.json v
  | .optional _, none => .null
  | .optional s, some v => s.json v

def ArgumentType.json : (t : ArgumentType) → t.Value → Json
  | .single e, v => e.json v
  | .vec e, vs => .array (vs.map e.json)

/-- What the source uses of `serde_json`. -/
structure SerdeJson where
  toValue : (t : ArgumentType) → t.Value → Option Json
  fromValue : (t : ArgumentType) → Json → Option t.Value
  fromStr : Text → Option Json

/-- The conversion that `serde_json` documents for these types: a value is written as its
JSON and read from it alone, without coercions, and the text of a boolean or of an integer
parses. -/
structure SerdeJson.Documented (serde : SerdeJson) : Prop where
  toValue : ∀ t v, serde.toValue t v = some (t.json v)
  fromValue : ∀ t json v, serde.fromValue t json = some v ↔ json = t.json v
  fromStr_bool : ∀ b, serde.fromStr (boolText b) = some (.bool b)
  fromStr_integer : ∀ n : Int, -2 ^ 63 ≤ n → n < 2 ^ 64 →
    serde.fromStr (integerText n) = some (.number (integerText n))

/-! ## Encoding and decoding -/

def encodeArgument (serde : SerdeJson) (t : ArgumentType) (value : t.Value) : Except Error Json :=
  match serde.toValue t value with
  | some json => .ok json
  | none => .error (.internal "failed to serialize invocation argument")

mutual

def parseSpringJsonScalars (fromStr : Text → Option Json) : Json → Json
  | .string value =>
    match fromStr value with
    | some .null => .null
    | some (.bool b) => .bool b
    | some (.number text) => .number text
    | _ => .string value
  | .array values => .array (parseItems fromStr values)
  | value => value

def parseItems (fromStr : Text → Option Json) : List Json → List Json
  | [] => []
  | value :: values => parseSpringJsonScalars fromStr value :: parseItems fromStr values

end

def invalidArgument : Error :=
  .framework .invalidArgument "invalid_argument"
    "request does not match the invocation message schema".toList

def decodeArgument (serde : SerdeJson) (t : ArgumentType) (value : Json) (textEncoded : Bool) :
    Except Error t.Value :=
  match serde.fromValue t value with
  | some decoded => .ok decoded
  | none =>
    if textEncoded then
      match serde.fromValue t (parseSpringJsonScalars serde.fromStr value) with
      | some decoded => .ok decoded
      | none => .error invalidArgument
    else .error invalidArgument

/-! ## Texts on the wire -/

def IsTextSource (source : HttpParameterSource) : Prop :=
  source = .path ∨ source = .query ∨ source = .header ∨ source = .cookie

/-- An absent value is not written. -/
def optionalText (value : Json) (name : Text) : Except Error (List Text) :=
  match value with
  | .null => .ok []
  | value => do
    let text ← scalarText value name
    .ok [text]

/-- The texts that the encoder writes for an argument. -/
def writtenTexts (p : HttpParameter) (value : Json) : Except Error (List Text) :=
  match p.source with
  | .query =>
    match p.cardinality with
    | .scalar =>
      match value with
      | .array _ => .error (invalidQueryCardinality p.name
          "is an array but is declared scalar; add `#[param(query, repeated)]`")
      | value => optionalText value p.name
    | .repeated =>
      match value with
      | .array values => values.mapM fun value => scalarText value p.name
      | _ => .error (invalidQueryCardinality p.name
          "is declared repeated but did not serialize as an array; serialize it as an array or remove `repeated`")
  | .header | .cookie => optionalText value p.name
  | _ => do
    let text ← scalarText value p.name
    .ok [text]

/-- The value that the server reads from the texts it finds. -/
def readTexts (p : HttpParameter) (texts : List Text) : Except Error Json :=
  match p.source with
  | .query => decodeQuery p texts
  | .header =>
    match texts with
    | [] => .ok .null
    | [value] => .ok (.string value)
    | _ => .error (.framework .invalidArgument "duplicate_header_parameter"
        ("scalar HTTP header parameter ".toList ++ p.name ++ " must appear at most once".toList))
  | _ => .ok (textOrNull texts.head?)

/-- What the texts of a parameter change in the request. -/
def Sent (codec : PercentCodec) (p : HttpParameter) (texts : List Text) (s s' : EncodeState) :
    Prop :=
  match p.source with
  | .path => ∃ text, texts = [text] ∧
      s'.path = replaceAll ('{' :: p.name ++ ['}']) (codec.encode text) s.path
  | .query => s'.query = s.query ++ writePairs codec (texts.map fun text => (p.name, text))
  | .header => (texts = [] ∧ s' = s) ∨ ∃ text, texts = [text] ∧
      ∃ name v, boundHeaderName p.name = .ok name ∧ HeaderValue.fromStr text = some v ∧
        s'.headers = s.headers.insert name v
  | .cookie => s'.cookies = s.cookies ++ texts.map fun text => p.name ++ '=' :: text
  | .bodyField | .body | .queryMap | .headerMap => False

/-- The texts that the server finds for a parameter. -/
def foundTexts (parts : RequestParts) (values : List (Text × List Text)) (p : HttpParameter) :
    Except Error (List Text) :=
  match p.source with
  | .path => .ok (Assoc.get parts.pathArguments p.name).toList
  | .query => .ok ((Assoc.get values p.name).getD [])
  | .header => (getAllNamed parts.headers p.name).mapM (headerText (.framework .invalidArgument
      "invalid_header_parameter"
      ("HTTP header parameter ".toList ++ p.name ++ " is not valid text".toList)))
  | .cookie => .ok (Assoc.get parts.cookies p.name).toList
  | .bodyField | .body | .queryMap | .headerMap => .ok []

/-- The server reads a text parameter from the texts it finds, and from nothing else. -/
theorem decodeParameter_eq_readTexts {p : HttpParameter} (hp : IsTextSource p.source)
    (parts : RequestParts) (values : List (Text × List Text)) :
    decodeParameter parts values p = foundTexts parts values p >>= readTexts p := by
  unfold decodeParameter foundTexts readTexts
  rcases hp with h | h | h | h
  · rw [h]
    cases Assoc.get parts.pathArguments p.name <;> rfl
  · rw [h]
    rfl
  · rw [h]
    show headerValue parts.headers p.name = _
    unfold headerValue
    congr 1
  · rw [h]
    cases Assoc.get parts.cookies p.name <;> rfl

theorem optionalText_ok {value : Json} (h : IsOptional value) (name : Text) :
    optionalText value name = .ok (scalarOf value).toList := by
  rcases h with rfl | ⟨text, ht⟩
  · rfl
  · have htext := (scalarText_eq_ok_iff value name text).mpr ht
    rw [ht]
    unfold optionalText
    split
    · cases ht
    · rw [htext]
      rfl

theorem mapM_scalarText {values : List Json} {texts : List Text}
    (h : values.map scalarOf = texts.map some) (name : Text) :
    (values.mapM fun value => scalarText value name) = .ok texts := by
  rw [Except.mapM_eq_ok_iff]
  induction values generalizing texts with
  | nil =>
    rw [List.map_eq_nil_iff.mp h.symm]
    exact .nil
  | cons value values ih =>
    cases texts with
    | nil => cases h
    | cons text texts =>
      rw [List.map_cons, List.map_cons, List.cons.injEq] at h
      exact .cons ((scalarText_eq_ok_iff value name text).mpr h.1) (ih h.2)

theorem map_scalarOf {items : List Json} (h : ∀ item ∈ items, IsScalar item) :
    items.map scalarOf = (items.filterMap scalarOf).map some := by
  induction items with
  | nil => rfl
  | cons item items ih =>
    rw [List.forall_mem_cons] at h
    obtain ⟨text, ht⟩ := h.1
    rw [List.map_cons, List.filterMap_cons, ht, ih h.2, List.map_cons]

theorem writtenTexts_query {p : HttpParameter} {value : Json} (hp : p.source = .query)
    (hfits : QueryFits p.cardinality value) : writtenTexts p value = .ok (textsOf value) := by
  unfold writtenTexts
  rw [hp]
  cases hcard : p.cardinality with
  | scalar =>
    rw [hcard] at hfits
    rw [textsOf_optional hfits, ← optionalText_ok hfits p.name]
    cases value with
    | array items =>
      rcases hfits with hnull | ⟨text, ht⟩
      · cases hnull
      · cases ht
    | _ => rfl
  | repeated =>
    rw [hcard] at hfits
    obtain ⟨items, rfl, hall⟩ := hfits
    exact mapM_scalarText (map_scalarOf hall) p.name

theorem writtenTexts_optional {p : HttpParameter} {value : Json}
    (hp : p.source = .header ∨ p.source = .cookie) (hfits : IsOptional value) :
    writtenTexts p value = .ok (scalarOf value).toList := by
  rw [← optionalText_ok hfits p.name]
  unfold writtenTexts
  rcases hp with h | h <;> rw [h]

theorem writtenTexts_path {p : HttpParameter} {value : Json} (hp : p.source = .path) :
    writtenTexts p value = (do
      let text ← scalarText value p.name
      .ok [text]) := by
  unfold writtenTexts
  rw [hp]

/-- What a successful encoding sends for a text parameter is its texts. -/
theorem sent_of_encodeParameter {codec : PercentCodec} {explicitQuery : List Text}
    {explicitHeaders : List HeaderName} {s s' : EncodeState} {p : HttpParameter} {value : Json}
    (hp : IsTextSource p.source)
    (h : encodeParameter codec explicitQuery explicitHeaders s p value = .ok s') :
    ∃ texts, writtenTexts p value = .ok texts ∧ Sent codec p texts s s' := by
  unfold IsTextSource at hp
  cases encodeParameter_step h with
  | @path hsrc text ht =>
    refine ⟨[text], ?_, ?_⟩
    · rw [writtenTexts_path hsrc, (scalarText_eq_ok_iff value p.name text).mpr ht]
      rfl
    · unfold Sent
      rw [hsrc]
      exact ⟨text, rfl, rfl⟩
  | query hsrc hq =>
    obtain ⟨hfits, hquery⟩ := appendQuery_spec hq
    refine ⟨textsOf value, writtenTexts_query hsrc hfits, ?_⟩
    unfold Sent
    rw [hsrc]
    exact hquery
  | nullHeader hsrc hv =>
    refine ⟨[], hv ▸ writtenTexts_optional (.inl hsrc) (.inl rfl), ?_⟩
    unfold Sent
    rw [hsrc]
    exact .inl ⟨rfl, rfl⟩
  | header hsrc hv hh =>
    obtain ⟨name, hname, hh⟩ := Except.bind_eq_ok_iff.mp hh
    split at hh
    · cases hh
    · obtain ⟨text, ht, hh⟩ := Except.bind_eq_ok_iff.mp hh
      rw [scalarText_eq_ok_iff] at ht
      have hwritten := writtenTexts_optional (p := p) (.inl hsrc) (.inr ⟨text, ht⟩)
      rw [ht] at hwritten
      split at hh
      · rename_i v hvalue
        cases hh
        refine ⟨[text], hwritten, ?_⟩
        unfold Sent
        rw [hsrc]
        exact .inr ⟨text, rfl, name, v, hname, hvalue, rfl⟩
      · cases hh
  | nullCookie hsrc hv =>
    refine ⟨[], hv ▸ writtenTexts_optional (.inr hsrc) (.inl rfl), ?_⟩
    unfold Sent
    rw [hsrc]
    exact (List.append_nil s.cookies).symm
  | @cookie hsrc text ht =>
    obtain ⟨text', ht', hcheck⟩ := Except.bind_eq_ok_iff.mp ht
    rw [scalarText_eq_ok_iff] at ht'
    have hwritten := writtenTexts_optional (p := p) (.inr hsrc) (.inr ⟨text', ht'⟩)
    rw [ht'] at hwritten
    split at hcheck
    · cases hcheck
      refine ⟨[text], hwritten, ?_⟩
      unfold Sent
      rw [hsrc]
      rfl
    · cases hcheck
  | bodyField hsrc => simp [hsrc] at hp
  | body hsrc => simp [hsrc] at hp
  | queryMap hsrc hq => simp [hsrc] at hp
  | headerMap hsrc hh => simp [hsrc] at hp

/-! ## What is received -/

def ScalarType.text : (s : ScalarType) → s.Value → Text
  | .string, v => v
  | .bool, v => boolText v
  | .integer _, v => integerText v.1

theorem scalarOf_json (s : ScalarType) (v : s.Value) : scalarOf (s.json v) = some (s.text v) := by
  cases s <;> rfl

/-- The value as text, an absent one as `null`. -/
def ElementType.received (e : ElementType) (v : e.Value) : Json := textOrNull (scalarOf (e.json v))

def ArgumentType.received : (t : ArgumentType) → t.Value → Json
  | .single e, v => e.received v
  | .vec e, vs => .array (vs.map e.received)

theorem isOptional_json (e : ElementType) (v : e.Value) : IsOptional (e.json v) := by
  match e, v with
  | .required s, v => exact .inr ⟨_, scalarOf_json s v⟩
  | .optional s, some v => exact .inr ⟨_, scalarOf_json s v⟩
  | .optional _, none => exact .inl rfl

section Parse

variable {serde : SerdeJson} (hserde : serde.Documented)

theorem parseItems_map {α : Type} (fromStr : Text → Option Json) (f : α → Json) (l : List α) :
    parseItems fromStr (l.map f) = l.map fun a => parseSpringJsonScalars fromStr (f a) := by
  induction l with
  | nil => rfl
  | cons a l ih =>
    rw [List.map_cons, List.map_cons, parseItems, ih]

/-- A scalar that is no string is no text, so a second reading leaves it. -/
theorem parse_json_scalar (fromStr : Text → Option Json) {s : ScalarType} (hs : s ≠ .string)
    (v : s.Value) : parseSpringJsonScalars fromStr (s.json v) = s.json v := by
  cases s with
  | string => exact absurd rfl hs
  | bool => rfl
  | integer t => rfl

include hserde in
/-- The text of a scalar that is no string is read as the scalar. -/
theorem parse_text_scalar {s : ScalarType} (hs : s ≠ .string) (v : s.Value) :
    parseSpringJsonScalars serde.fromStr (.string (s.text v)) = s.json v := by
  cases s with
  | string => exact absurd rfl hs
  | bool =>
    have hread : serde.fromStr (ScalarType.bool.text v) = some (.bool v) := hserde.fromStr_bool v
    rw [parseSpringJsonScalars, hread]
    rfl
  | integer t =>
    have hwithin := t.within
    have hread : serde.fromStr ((ScalarType.integer t).text v) =
        some (.number (integerText v.1)) :=
      hserde.fromStr_integer v.1 (by have := v.2.1; omega) (by have := v.2.2; omega)
    rw [parseSpringJsonScalars, hread]
    rfl

theorem parse_json_element (fromStr : Text → Option Json) {e : ElementType}
    (he : e.scalar ≠ .string) (v : e.Value) :
    parseSpringJsonScalars fromStr (e.json v) = e.json v := by
  match e, v with
  | .required s, v => exact parse_json_scalar fromStr he v
  | .optional s, some v => exact parse_json_scalar fromStr he v
  | .optional _, none => rfl

include hserde in
theorem parse_received_element {e : ElementType} (he : e.scalar ≠ .string) (v : e.Value) :
    parseSpringJsonScalars serde.fromStr (e.received v) = e.json v := by
  unfold ElementType.received
  match e, v with
  | .required s, v =>
    rw [show ElementType.json (.required s) v = s.json v from rfl, scalarOf_json]
    exact parse_text_scalar hserde he v
  | .optional s, some v =>
    rw [show ElementType.json (.optional s) (some v) = s.json v from rfl, scalarOf_json]
    exact parse_text_scalar hserde he v
  | .optional _, none => rfl

theorem parse_json (fromStr : Text → Option Json) {t : ArgumentType} (ht : t.scalar ≠ .string)
    (v : t.Value) : parseSpringJsonScalars fromStr (t.json v) = t.json v := by
  cases t with
  | single e => exact parse_json_element fromStr ht v
  | vec e =>
    show parseSpringJsonScalars fromStr (.array (v.map e.json)) = .array (v.map e.json)
    rw [parseSpringJsonScalars, parseItems_map]
    simp only [parse_json_element fromStr ht]

include hserde in
/-- **The second reading finds the value**, unless it holds strings. -/
theorem parse_received {t : ArgumentType} (ht : t.scalar ≠ .string) (v : t.Value) :
    parseSpringJsonScalars serde.fromStr (t.received v) = t.json v := by
  cases t with
  | single e => exact parse_received_element hserde ht v
  | vec e =>
    show parseSpringJsonScalars serde.fromStr (.array (v.map e.received)) = .array (v.map e.json)
    rw [parseSpringJsonScalars, parseItems_map]
    simp only [parse_received_element hserde ht]

/-- A string is received as it was sent. -/
theorem received_element_string {e : ElementType} (he : e.scalar = .string) (v : e.Value) :
    e.received v = e.json v := by
  match e, he, v with
  | .required _, rfl, v => rfl
  | .optional _, rfl, some v => rfl
  | .optional _, rfl, none => rfl

theorem received_string {t : ArgumentType} (ht : t.scalar = .string) (v : t.Value) :
    t.received v = t.json v := by
  cases t with
  | single e => exact received_element_string ht v
  | vec e =>
    exact congrArg Json.array (List.map_congr_left fun x _ => received_element_string ht x)

include hserde in
/-- **The first reading never finds another value.**  A value it finds has the received
JSON; were it no string, the second reading would leave that JSON alone. -/
theorem eq_of_fromValue_received {t : ArgumentType} {v v' : t.Value}
    (h : serde.fromValue t (t.received v) = some v') : v' = v := by
  rw [hserde.fromValue] at h
  have hjson : t.json v' = t.json v := by
    by_cases ht : t.scalar = .string
    · rw [← h, received_string ht]
    · have hparse := parse_received hserde ht v
      rw [h, parse_json serde.fromStr ht] at hparse
      exact hparse
  have hv := (hserde.fromValue t (t.json v) v).mpr rfl
  have hv' := (hserde.fromValue t (t.json v) v').mpr hjson.symm
  exact Option.some.inj (hv'.symm.trans hv)

include hserde in
theorem decodeArgument_received (t : ArgumentType) (v : t.Value) :
    decodeArgument serde t (t.received v) true = .ok v := by
  unfold decodeArgument
  split
  · rename_i v' hfirst
    rw [eq_of_fromValue_received hserde hfirst]
  · rename_i hfirst
    have ht : t.scalar ≠ .string := by
      intro ht
      rw [received_string ht, (hserde.fromValue t (t.json v) v).mpr rfl] at hfirst
      cases hfirst
    rw [if_pos rfl, parse_received hserde ht, (hserde.fromValue t (t.json v) v).mpr rfl]

end Parse

/-! ## The round trip -/

/-- The parameter may be declared with the type. -/
def Declares (p : HttpParameter) : ArgumentType → Prop
  | .single _ => IsTextSource p.source ∧ p.cardinality = .scalar
  | .vec _ => p.source = .query ∧ p.cardinality = .repeated

/-- The value has a `None` where the parameter has no way to leave it out. -/
def HasUnsendableNone (p : HttpParameter) : (t : ArgumentType) → t.Value → Prop
  | .single e, v => p.source = .path ∧ e.json v = .null
  | .vec e, vs => ∃ v ∈ vs, e.json v = .null

/-- The error for a value without text. -/
def noScalar (name : Text) : Error :=
  .framework .invalidArgument "invalid_http_parameter"
    ("HTTP text argument ".toList ++ name ++ " must be a scalar".toList)

theorem isScalar_of_ne_null {e : ElementType} {v : e.Value} (h : e.json v ≠ .null) :
    IsScalar (e.json v) :=
  (isOptional_json e v).resolve_left h

theorem mapM_scalarText_null {values : List Json} {name : Text}
    (hall : ∀ value ∈ values, IsOptional value) (hnull : .null ∈ values) :
    (values.mapM fun value => scalarText value name) = .error (noScalar name) := by
  induction values with
  | nil => cases hnull
  | cons value values ih =>
    rw [List.mapM_cons]
    rw [List.forall_mem_cons] at hall
    rcases hall.1 with rfl | ⟨text, ht⟩
    · rfl
    · have hrest : .null ∈ values := by
        rcases List.mem_cons.mp hnull with rfl | hrest
        · cases ht
        · exact hrest
      rw [(scalarText_eq_ok_iff value name text).mpr ht, ih hall.2 hrest]
      rfl

/-- A value with an unsendable `None` is refused. -/
theorem writtenTexts_unsendable {p : HttpParameter} {t : ArgumentType} (hp : Declares p t)
    {v : t.Value} (h : HasUnsendableNone p t v) :
    writtenTexts p (t.json v) = .error (noScalar p.name) := by
  cases t with
  | single e =>
    obtain ⟨hsrc, hnull⟩ := h
    rw [writtenTexts_path hsrc, show (ArgumentType.single e).json v = .null from hnull]
    rfl
  | vec e =>
    obtain ⟨hsrc, hcard⟩ := hp
    obtain ⟨x, hx, hnull⟩ := h
    unfold writtenTexts
    rw [hsrc, hcard]
    refine mapM_scalarText_null ?_ (List.mem_map.mpr ⟨x, hx, hnull⟩)
    intro value hvalue
    obtain ⟨y, -, rfl⟩ := List.mem_map.mp hvalue
    exact isOptional_json e y

theorem readTexts_optional {p : HttpParameter} (hp : IsTextSource p.source)
    (hcard : p.cardinality = .scalar) (text : Option Text) :
    readTexts p text.toList = .ok (textOrNull text) := by
  unfold readTexts
  rcases hp with h | h | h | h
  · rw [h]
    cases text <;> rfl
  · rw [h]
    exact decodeQuery_scalar hcard text
  · rw [h]
    cases text <;> rfl
  · rw [h]
    cases text <;> rfl

/-- Any other value is written, and received as it is read from its texts. -/
theorem writtenTexts_sendable {p : HttpParameter} {t : ArgumentType} (hp : Declares p t)
    {v : t.Value} (h : ¬ HasUnsendableNone p t v) :
    ∃ texts, writtenTexts p (t.json v) = .ok texts ∧ readTexts p texts = .ok (t.received v) := by
  cases t with
  | single e =>
    obtain ⟨hsrc, hcard⟩ := hp
    have hread := readTexts_optional hsrc hcard (scalarOf (e.json v))
    refine ⟨(scalarOf (e.json v)).toList, ?_, hread⟩
    show writtenTexts p (e.json v) = _
    have hfits := isOptional_json e v
    rcases hsrc with hpath | hquery | hheader | hcookie
    · obtain ⟨text, ht⟩ := isScalar_of_ne_null fun hnull => h ⟨hpath, hnull⟩
      rw [writtenTexts_path hpath, (scalarText_eq_ok_iff _ _ _).mpr ht, ht]
      rfl
    · rw [writtenTexts_query hquery (by rw [hcard]; exact hfits), textsOf_optional hfits]
    · exact writtenTexts_optional (.inl hheader) hfits
    · exact writtenTexts_optional (.inr hcookie) hfits
  | vec e =>
    obtain ⟨hsrc, hcard⟩ := hp
    have hall : ∀ item ∈ v.map e.json, IsScalar item := by
      intro item hitem
      obtain ⟨x, hx, rfl⟩ := List.mem_map.mp hitem
      exact isScalar_of_ne_null fun hnull => h ⟨x, hx, hnull⟩
    refine ⟨(v.map e.json).filterMap scalarOf, ?_, ?_⟩
    · exact writtenTexts_query hsrc (by rw [hcard]; exact ⟨_, rfl, hall⟩)
    · unfold readTexts
      rw [hsrc]
      show decodeQuery p _ = _
      rw [decodeQuery_repeated hcard]
      have htexts := map_scalarOf hall
      have hitems : ((v.map e.json).filterMap scalarOf).map Json.string = v.map e.received := by
        have hmap := congrArg (List.map textOrNull) htexts
        rw [List.map_map, List.map_map, List.map_map] at hmap
        exact hmap.symm
      rw [hitems]
      rfl

theorem Declares.isTextSource {p : HttpParameter} {t : ArgumentType} (hp : Declares p t) :
    IsTextSource p.source := by
  cases t with
  | single e => exact hp.1
  | vec e => exact .inr (.inl hp.1)

/-- **Typed text arguments.**  A value that the parameter can carry is written as texts, and
a server that finds these texts decodes them to the value again, whatever JSON they look
like; a `None` travels as absence.  Only a `None` in a path or inside a list has no text,
and the encoder refuses it. -/
theorem text_argument_roundTrip {serde : SerdeJson} (hserde : serde.Documented)
    {p : HttpParameter} {t : ArgumentType} (hp : Declares p t) (v : t.Value) :
    ∃ json, encodeArgument serde t v = .ok json ∧
      (HasUnsendableNone p t v → writtenTexts p json = .error (noScalar p.name) ∧
        ∀ codec explicitQuery explicitHeaders s s',
          encodeParameter codec explicitQuery explicitHeaders s p json ≠ .ok s') ∧
      (¬ HasUnsendableNone p t v → ∃ texts, writtenTexts p json = .ok texts ∧
        (∀ codec explicitQuery explicitHeaders s s',
          encodeParameter codec explicitQuery explicitHeaders s p json = .ok s' →
            Sent codec p texts s s') ∧
        ∀ parts values, foundTexts parts values p = .ok texts →
          ∃ received, decodeParameter parts values p = .ok received ∧
            decodeArgument serde t received true = .ok v) := by
  refine ⟨t.json v, ?_, ?_, ?_⟩
  · unfold encodeArgument
    rw [hserde.toValue]
  · intro hnone
    have hrefused := writtenTexts_unsendable hp hnone
    refine ⟨hrefused, ?_⟩
    intro codec explicitQuery explicitHeaders s s' hencode
    obtain ⟨texts, hwrite, -⟩ := sent_of_encodeParameter hp.isTextSource hencode
    rw [hrefused] at hwrite
    cases hwrite
  · intro hsendable
    obtain ⟨texts, hwrite, hread⟩ := writtenTexts_sendable hp hsendable
    refine ⟨texts, hwrite, ?_, ?_⟩
    · intro codec explicitQuery explicitHeaders s s' hencode
      obtain ⟨texts', hwrite', hsent⟩ := sent_of_encodeParameter hp.isTextSource hencode
      rw [hwrite, Except.ok.injEq] at hwrite'
      exact hwrite' ▸ hsent
    · intro parts values hfound
      refine ⟨t.received v, ?_, decodeArgument_received hserde t v⟩
      rw [decodeParameter_eq_readTexts hp.isTextSource, hfound]
      exact hread

/-! ## A conversion as documented -/

def ScalarType.ofJson : (s : ScalarType) → Json → Option s.Value
  | .string, .string v => some v
  | .bool, .bool v => some v
  | .integer t, .number text => (parseInteger text).bind fun n =>
    if h : t.min ≤ n ∧ n < t.bound then some ⟨n, h⟩ else none
  | _, _ => none

def ElementType.ofJson : (e : ElementType) → Json → Option e.Value
  | .required s, json => s.ofJson json
  | .optional _, .null => some none
  | .optional s, json => (s.ofJson json).map some

def ArgumentType.ofJson : (t : ArgumentType) → Json → Option t.Value
  | .single e, json => e.ofJson json
  | .vec e, .array items => items.mapM e.ofJson
  | .vec _, _ => none

theorem ScalarType.ofJson_eq_some_iff {s : ScalarType} {json : Json} {v : s.Value} :
    s.ofJson json = some v ↔ json = s.json v := by
  cases s with
  | string => cases json <;> simp [ofJson, ScalarType.json]
  | bool => cases json <;> simp [ofJson, ScalarType.json]
  | integer t =>
    cases json with
    | number text =>
      show ((parseInteger text).bind fun n =>
        if h : t.min ≤ n ∧ n < t.bound then some ⟨n, h⟩ else none) = some v ↔
          Json.number text = .number (integerText v.1)
      rw [Option.bind_eq_some_iff, Json.number.injEq, ← parseInteger_eq_some_iff]
      constructor
      · rintro ⟨n, hn, h⟩
        split at h
        · cases h
          exact hn
        · cases h
      · intro h
        exact ⟨v.1, h, by rw [dif_pos v.2]⟩
    | _ => exact ⟨fun h => (by cases h), fun h => (by cases h)⟩

theorem ElementType.ofJson_eq_some_iff {e : ElementType} {json : Json} {v : e.Value} :
    e.ofJson json = some v ↔ json = e.json v := by
  match e, v with
  | .required s, v => exact ScalarType.ofJson_eq_some_iff
  | .optional s, none =>
    cases json <;> simp [ofJson, ElementType.json]
  | .optional s, some v =>
    show _ ↔ json = s.json v
    rw [← ScalarType.ofJson_eq_some_iff]
    cases json with
    | null =>
      have hnull : s.ofJson .null = none := by cases s <;> rfl
      rw [hnull]
      simp [ofJson]
    | _ => simp [ofJson]

/-- **The conversion reads a value from its own JSON alone.** -/
theorem ArgumentType.ofJson_eq_some_iff {t : ArgumentType} {json : Json} {v : t.Value} :
    t.ofJson json = some v ↔ json = t.json v := by
  cases t with
  | single e => exact ElementType.ofJson_eq_some_iff
  | vec e =>
    show _ ↔ json = .array (v.map e.json)
    cases json with
    | array items =>
      show items.mapM e.ofJson = some v ↔ _
      rw [Option.mapM_eq_some_iff, Json.array.injEq, ← List.forall₂_eq_eq_eq,
        List.forall₂_map_right_iff]
      simp only [ElementType.ofJson_eq_some_iff]
    | _ => exact ⟨fun h => (by cases h), fun h => (by cases h)⟩

def serdeJson : SerdeJson where
  toValue t v := some (t.json v)
  fromValue := ArgumentType.ofJson
  fromStr s := Json.read 127 s

theorem serdeJson_documented : serdeJson.Documented where
  toValue _ _ := rfl
  fromValue _ _ _ := ArgumentType.ofJson_eq_some_iff
  fromStr_bool b := by
    have hread := Json.read_print (v := .bool b) trivial 127
    cases b <;> exact hread
  fromStr_integer n _ _ := by
    have hread := Json.read_print (v := .number (integerText n)) (isNumber_integerText n) 127
    exact hread

def pageParameter : HttpParameter := ⟨"page".toList, .query, .scalar, (rfl : true = true)⟩

def foundNull : RequestParts := ⟨[], .empty, [], none, [pageParameter.name], []⟩

/-- The text `null` of a required string is decoded to that string. -/
theorem text_argument_roundTrip_null : ∃ received,
    decodeParameter foundNull [(pageParameter.name, ["null".toList])] pageParameter =
      .ok received ∧
    decodeArgument serdeJson (.single (.required .string)) received true = .ok "null".toList := by
  obtain ⟨json, hencode, -, h⟩ := text_argument_roundTrip serdeJson_documented
    (p := pageParameter) (t := .single (.required .string)) ⟨.inr (.inl rfl), rfl⟩ "null".toList
  cases hencode
  obtain ⟨texts, hwrite, -, hdecode⟩ := h fun hnone => by cases hnone.1
  cases hwrite
  exact hdecode foundNull [(pageParameter.name, ["null".toList])] rfl

def idParameter : HttpParameter := ⟨"id".toList, .path, .scalar, (rfl : true = true)⟩

/-- An absent identifier has no text in a path: no server gets to decode it. -/
theorem text_argument_none : Declares idParameter (.single (.optional .string)) ∧
    ¬ ∃ json texts received,
      encodeArgument serdeJson (.single (.optional .string)) none = .ok json ∧
      writtenTexts idParameter json = .ok texts ∧ readTexts idParameter texts = .ok received ∧
      decodeArgument serdeJson (.single (.optional .string)) received true = .ok none := by
  refine ⟨⟨.inl rfl, rfl⟩, ?_⟩
  rintro ⟨json, texts, received, hencode, hwrite, -⟩
  cases hencode
  cases hwrite

end Fusen.Binding
