import Fusen.Http

/-!
# Service contracts (`fusen-contract/service.rs`)

The HTTP mapping of a service method.  `HttpOperation.new` is the validation every
mapping has passed; an `HttpOperation` keeps the result, and the lemmas of its
namespace read it: parameter names are distinct, the placeholders of the route are
the Path parameters, and the route is the join of its segments.
-/

namespace Fusen.Contract

open Lib

inductive HttpParameterSource
  | path | query | header | cookie | bodyField | body | queryMap | headerMap
deriving DecidableEq, Repr

inductive HttpParameterCardinality
  | scalar | repeated
deriving DecidableEq, Repr

inductive ContractError
  | invalidIdentifier (field : Text)
  | invalidInstanceId
  | invalidMetadataKey (key : Text)
  | invalidHttpBinding
  | emptyHttpVersionSet
  | emptyHttpBindings
  | invalidEndpoint (reason : Text)
  | invalidWeight
  | emptyMethods
  | invalidMethod (reason : Text)
  /-- `InvalidMethod` with the text `invalid HTTP route {path:?}: {reason}`. -/
  | invalidRoute (path reason : Text)
  /-- `InvalidMethod` for a media type that does not parse. -/
  | invalidMediaType (field value : Text)
deriving DecidableEq

def maxIdentityBytes : Nat := 128

def isIdentityChar (c : Char) : Bool := c.isAlphanum || c == '.' || c == '_' || c == '-'

def isIdentityComponent (s : Text) : Bool :=
  s ≠ [] && s.length ≤ maxIdentityBytes && s.all isIdentityChar

theorem notMem_of_isIdentityComponent {s : Text} (h : isIdentityComponent s = true) {c : Char}
    (hc : isIdentityChar c = false) : c ∉ s := by
  intro hm
  simp only [isIdentityComponent, Bool.and_eq_true, List.all_eq_true] at h
  rw [h.2 c hm] at hc
  cases hc

structure HttpParameter where
  name : Text
  source : HttpParameterSource
  cardinality : HttpParameterCardinality
  valid : isIdentityComponent name = true
deriving DecidableEq

def HttpParameter.new (name : Text) (source : HttpParameterSource)
    (cardinality : HttpParameterCardinality) : Except ContractError HttpParameter :=
  if h : isIdentityComponent name = true then .ok ⟨name, source, cardinality, h⟩
  else .error (.invalidIdentifier "HTTP parameter name".toList)

/-! ## Routes -/

def uppercaseHexValue (b : UInt8) : Option Nat :=
  if 48 ≤ b.toNat ∧ b.toNat ≤ 57 then some (b.toNat - 48)
  else if 65 ≤ b.toNat ∧ b.toNat ≤ 70 then some (b.toNat - 65 + 10)
  else none

def isRoutePchar (b : UInt8) : Bool :=
  (Char.ofNat b.toNat).isAlphanum || "-._~!$&'()*+,;=:@".toList.contains (Char.ofNat b.toNat)

/-- `char::is_whitespace`. -/
def isWhitespace (c : Char) : Bool :=
  (9 ≤ c.toNat && c.toNat ≤ 13) || (0x2000 ≤ c.toNat && c.toNat ≤ 0x200A) ||
    [0x20, 0x85, 0xA0, 0x1680, 0x2028, 0x2029, 0x202F, 0x205F, 0x3000].contains c.toNat

/-- `char::is_control`. -/
def isControl (c : Char) : Bool := c.toNat < 32 || (127 ≤ c.toNat && c.toNat < 160)

def invalidEscape : Text :=
  "percent escapes must contain two uppercase hexadecimal digits".toList

/-- The loop of `decode_route_literal`: escapes may only stand for bytes outside ASCII. -/
def decodeRouteBytes : List UInt8 → Except Text (List UInt8)
  | [] => .ok []
  | b :: rest =>
    if b = 37 then
      match rest with
      | high :: low :: rest =>
        match uppercaseHexValue high, uppercaseHexValue low with
        | some high, some low =>
          if high * 16 + low < 128 then
            .error "ASCII route characters must not be percent encoded".toList
          else (decodeRouteBytes rest).map (UInt8.ofNat (high * 16 + low) :: ·)
        | _, _ => .error invalidEscape
      | _ => .error invalidEscape
    else if !isRoutePchar b then
      .error "literal segments must use ASCII RFC3986 path characters".toList
    else (decodeRouteBytes rest).map (b :: ·)

def decodeRouteLiteral (segment : Text) : Except Text Text :=
  match decodeRouteBytes (utf8 segment) with
  | .error e => .error e
  | .ok bytes =>
    match utf8Text bytes with
    | none => .error "percent-encoded route text must be valid UTF-8".toList
    | some decoded =>
      if decoded = ['.'] ∨ decoded = ['.', '.'] then
        .error "dot path segments are not allowed".toList
      else if decoded.any isWhitespace || decoded.any isControl then
        .error "route literals must not contain whitespace or control characters".toList
      else .ok decoded

/-- What stands between `{` and `}` when they enclose the whole segment. -/
def stripBraces : Text → Option Text
  | '{' :: rest => if rest.getLast? = some '}' then some rest.dropLast else none
  | _ => none

/-- The loop over the segments of a route; `placeholders` are those seen so far. -/
def validateSegments (invalid : Text → ContractError) (placeholders : List Text) :
    List Text → Except ContractError (List Text)
  | [] => .ok placeholders
  | segment :: rest =>
    match stripBraces segment with
    | some name =>
      if !isIdentityComponent name || placeholders.contains name then
        .error (invalid "path parameters must be unique full ASCII token segments".toList)
      else validateSegments invalid (placeholders ++ [name]) rest
    | none =>
      if segment.contains '{' || segment.contains '}' then
        .error (invalid "path parameters must occupy complete segments".toList)
      else match decodeRouteLiteral segment with
        | .error reason => .error (invalid reason)
        | .ok _ => validateSegments invalid placeholders rest

/-- The placeholders of a valid route, in their order. -/
def validateHttpRoute (path : Text) : Except ContractError (List Text) :=
  let invalid := ContractError.invalidRoute path
  if path.head? ≠ some '/' then .error (invalid "routes must be absolute".toList)
  else if path.contains '?' || path.contains '#' then
    .error (invalid "query strings and fragments are not allowed".toList)
  else if ['/', '/'] <:+: path then
    .error (invalid "empty path segments are not canonical".toList)
  else if 1 < path.length ∧ path.getLast? = some '/' then
    .error (invalid "a trailing slash is not canonical".toList)
  else validateSegments invalid [] (parts '/' path)

/-- A segment a valid route may have. -/
def IsRouteSegment (s : Text) : Prop :=
  match stripBraces s with
  | some name => isIdentityComponent name = true
  | none => '{' ∉ s ∧ '}' ∉ s ∧ ∃ decoded, decodeRouteLiteral s = .ok decoded

theorem stripBraces_braces (name : Text) : stripBraces ('{' :: name ++ ['}']) = some name := by
  simp [stripBraces]

theorem stripBraces_eq_some {s name : Text} (h : stripBraces s = some name) :
    s = '{' :: name ++ ['}'] := by
  unfold stripBraces at h
  split at h
  · split at h
    · rename_i rest hlast
      cases h
      obtain ⟨ys, rfl⟩ := List.getLast?_eq_some_iff.mp hlast
      simp
    · cases h
  · cases h

theorem IsRouteSegment.isPiece {s : Text} (h : IsRouteSegment s) : IsPiece s := by
  unfold IsRouteSegment at h
  split at h
  · rename_i name hname
    exact .inr ⟨name, stripBraces_eq_some hname,
      notMem_of_isIdentityComponent h (by decide), notMem_of_isIdentityComponent h (by decide)⟩
  · exact .inl h.1

theorem validateSegments_spec {invalid : Text → ContractError} {segments seen out : List Text}
    (h : validateSegments invalid seen segments = .ok out) :
    out = seen ++ segments.filterMap stripBraces ∧ (seen.Nodup → out.Nodup) ∧
      ∀ s ∈ segments, IsRouteSegment s := by
  induction segments generalizing seen with
  | nil =>
    cases h
    simp
  | cons s rest ih =>
    unfold validateSegments at h
    cases hs : stripBraces s with
    | some name =>
      simp only [hs] at h
      split at h
      · cases h
      · rename_i hok
        rw [Bool.not_eq_true, Bool.or_eq_false_iff, Bool.not_eq_false'] at hok
        have hnew : name ∉ seen := by simpa using hok.2
        obtain ⟨hout, hnd, hvalid⟩ := ih h
        refine ⟨by simp [hout, hs], fun hseen => hnd ?_, ?_⟩
        · rw [List.nodup_append]
          refine ⟨hseen, by simp, ?_⟩
          rintro a ha b hb rfl
          exact hnew (List.mem_singleton.mp hb ▸ ha)
        · rw [List.forall_mem_cons]
          refine ⟨?_, hvalid⟩
          rw [IsRouteSegment, hs]
          exact hok.1
    | none =>
      simp only [hs] at h
      split at h
      · cases h
      · rename_i hbrace
        rw [Bool.not_eq_true, Bool.or_eq_false_iff] at hbrace
        split at h
        · cases h
        · rename_i decoded hdec
          obtain ⟨hout, hnd, hvalid⟩ := ih h
          refine ⟨by simp [hout, hs], hnd, ?_⟩
          rw [List.forall_mem_cons]
          refine ⟨?_, hvalid⟩
          rw [IsRouteSegment, hs]
          exact ⟨by simpa using hbrace.1, by simpa using hbrace.2, decoded, hdec⟩

theorem validateHttpRoute_spec {path : Text} {placeholders : List Text}
    (h : validateHttpRoute path = .ok placeholders) :
    joinParts '/' (parts '/' path) = path ∧ '?' ∉ path ∧
      placeholders = (parts '/' path).filterMap stripBraces ∧ placeholders.Nodup ∧
      ∀ s ∈ parts '/' path, IsRouteSegment s := by
  unfold validateHttpRoute at h
  simp only at h
  split at h
  · cases h
  split at h
  · cases h
  split at h
  · cases h
  split at h
  · cases h
  rename_i habs hquery hslashes hlast
  obtain ⟨hout, hnd, hvalid⟩ := validateSegments_spec h
  refine ⟨?_, ?_, by simpa using hout, hnd (by simp), hvalid⟩
  · cases path with
    | nil => simp at habs
    | cons c rest =>
      simp only [List.head?_cons, Option.some.injEq, not_not] at habs
      subst habs
      apply joinParts_parts hslashes
      intro hne hl
      refine hlast ⟨?_, hl⟩
      have := List.length_pos_iff.mpr hne
      simp only [List.length_cons]
      omega
  · rw [Bool.not_eq_true, Bool.or_eq_false_iff] at hquery
    simpa using hquery.1

/-! ## Operations -/

/-- The running state of the loop over the parameters. -/
structure ParameterScan where
  names : List Text
  pathParameters : List Text
  bodyCount : Nat
  bodyFieldCount : Nat
  queryMapCount : Nat
  headerMapCount : Nat

def ParameterScan.add (s : ParameterScan) (p : HttpParameter) : ParameterScan where
  names := s.names ++ [p.name]
  pathParameters := s.pathParameters ++ if p.source = .path then [p.name] else []
  bodyCount := s.bodyCount + if p.source = .body then 1 else 0
  bodyFieldCount := s.bodyFieldCount + if p.source = .bodyField then 1 else 0
  queryMapCount := s.queryMapCount + if p.source = .queryMap then 1 else 0
  headerMapCount := s.headerMapCount + if p.source = .headerMap then 1 else 0

def scanParameters (s : ParameterScan) : List HttpParameter → Except ContractError ParameterScan
  | [] => .ok s
  | p :: rest =>
    if s.names.contains p.name then
      .error (.invalidMethod ("duplicate HTTP parameter ".toList ++ p.name))
    else if p.cardinality = .repeated ∧ p.source ≠ .query then
      .error (.invalidMethod "repeated parameters may use only the Query source".toList)
    else scanParameters (s.add p) rest

def methodText : Method → Text
  | .get => "GET".toList
  | .post => "POST".toList
  | .put => "PUT".toList
  | .patch => "PATCH".toList
  | .delete => "DELETE".toList
  | .head => "HEAD".toList
  | .options => "OPTIONS".toList
  | .extension name => name

def isSupportedMethod : Method → Bool
  | .extension _ => false
  | _ => true

def sameNames (a b : List Text) : Bool := a.all b.contains && b.all a.contains

def validateHttpOperation (method : Method) (path : Text) (parameters : List HttpParameter) :
    Except ContractError Unit :=
  if !isSupportedMethod method then
    .error (.invalidMethod ("unsupported HTTP method ".toList ++ methodText method))
  else match validateHttpRoute path with
    | .error e => .error e
    | .ok placeholders =>
      match scanParameters ⟨[], [], 0, 0, 0, 0⟩ parameters with
      | .error e => .error e
      | .ok s =>
        if 1 < s.bodyCount then
          .error (.invalidMethod "an HTTP operation permits at most one body parameter".toList)
        else if s.bodyCount = 1 ∧ s.bodyFieldCount ≠ 0 then
          .error (.invalidMethod
            "a complete JSON body cannot be combined with synthesized body fields".toList)
        else if 1 < s.queryMapCount then
          .error (.invalidMethod "an HTTP operation permits at most one QueryMap parameter".toList)
        else if 1 < s.headerMapCount then
          .error (.invalidMethod "an HTTP operation permits at most one HeaderMap parameter".toList)
        else if (method = .get ∨ method = .head ∨ method = .options) ∧
            s.bodyCount + s.bodyFieldCount ≠ 0 then
          .error (.invalidMethod ("HTTP ".toList ++ methodText method ++
            " methods do not accept a JSON request body".toList))
        else if !sameNames placeholders s.pathParameters then
          .error (.invalidMethod "HTTP route placeholders do not match Path parameters".toList)
        else .ok ()

structure HttpOperation where
  method : Method
  path : Text
  parameters : List HttpParameter
  consumes : Text
  produces : Text
  valid : validateHttpOperation method path parameters = .ok ()

/-- `canonicalMediaType` is the media type parser of the `mime` crate. -/
def HttpOperation.new (canonicalMediaType : Text → Option Text) (method : Method) (path : Text)
    (parameters : List HttpParameter) (consumes produces : Text) :
    Except ContractError HttpOperation :=
  match canonicalMediaType consumes with
  | none => .error (.invalidMediaType "consumes".toList consumes)
  | some consumes =>
    match canonicalMediaType produces with
    | none => .error (.invalidMediaType "produces".toList produces)
    | some produces =>
      match h : validateHttpOperation method path parameters with
      | .error e => .error e
      | .ok () => .ok ⟨method, path, parameters, consumes, produces, h⟩

/-- A mapping that carries JSON both ways. -/
def HttpOperation.json (method : Method) (path : String) (parameters : List HttpParameter)
    (h : validateHttpOperation method path.toList parameters = .ok ()) : HttpOperation :=
  ⟨method, path.toList, parameters, "application/json".toList, "application/json".toList, h⟩

structure MethodDescriptor where
  id : Nat
  invocationName : Text
  http : HttpOperation
  valid : isIdentityComponent invocationName = true

def MethodDescriptor.new (id : Nat) (invocationName : Text) (http : HttpOperation) :
    Except ContractError MethodDescriptor :=
  if h : isIdentityComponent invocationName = true then .ok ⟨id, invocationName, http, h⟩
  else .error (.invalidIdentifier "invocation method name".toList)

def MethodDescriptor.allowsRetries (m : MethodDescriptor) : Bool :=
  match m.http.method with
  | .get | .head | .options | .put | .delete => true
  | .post | .patch | .extension _ => false

/-- The method of the examples. -/
def usersMethod : MethodDescriptor :=
  ⟨0, "list".toList, .json .get "/users" [] (by decide +kernel), by decide⟩

/-! ## What validation established -/

theorem scanParameters_spec {s s' : ParameterScan} {ps : List HttpParameter}
    (h : scanParameters s ps = .ok s') :
    s' = ps.foldl ParameterScan.add s ∧ (s.names.Nodup → s'.names.Nodup) ∧
      ∀ p ∈ ps, p.cardinality = .repeated → p.source = .query := by
  induction ps generalizing s with
  | nil =>
    cases h
    simp
  | cons p rest ih =>
    unfold scanParameters at h
    split at h
    · cases h
    split at h
    · cases h
    rename_i hnew hrep
    obtain ⟨hfold, hnd, hall⟩ := ih h
    refine ⟨hfold, fun hs => hnd ?_, ?_⟩
    · show (s.names ++ [p.name]).Nodup
      rw [List.nodup_append]
      refine ⟨hs, by simp, ?_⟩
      rintro a ha b hb rfl
      rw [List.mem_singleton] at hb
      subst hb
      exact hnew (by simpa using ha)
    · rw [List.forall_mem_cons]
      refine ⟨fun hc => ?_, hall⟩
      by_contra hsrc
      exact hrep ⟨hc, hsrc⟩

theorem foldl_add_names (s : ParameterScan) (ps : List HttpParameter) :
    (ps.foldl ParameterScan.add s).names = s.names ++ ps.map HttpParameter.name := by
  induction ps generalizing s with
  | nil => simp
  | cons p ps ih => rw [List.foldl_cons, ih]; simp [ParameterScan.add]

theorem foldl_add_pathParameters (s : ParameterScan) (ps : List HttpParameter) :
    (ps.foldl ParameterScan.add s).pathParameters =
      s.pathParameters ++ (ps.filter fun p => p.source = .path).map HttpParameter.name := by
  induction ps generalizing s with
  | nil => simp
  | cons p ps ih =>
    rw [List.foldl_cons, ih]
    by_cases h : p.source = .path <;> simp [ParameterScan.add, h]

theorem foldl_add_mapCounts (s : ParameterScan) (ps : List HttpParameter) :
    (ps.foldl ParameterScan.add s).queryMapCount =
      s.queryMapCount + ps.countP (fun p => p.source = .queryMap) ∧
    (ps.foldl ParameterScan.add s).headerMapCount =
      s.headerMapCount + ps.countP (fun p => p.source = .headerMap) := by
  induction ps generalizing s with
  | nil => simp
  | cons p ps ih =>
    rw [List.foldl_cons, (ih _).1, (ih _).2, List.countP_cons, List.countP_cons]
    simp only [ParameterScan.add, decide_eq_true_eq]
    omega

theorem foldl_add_bodyCounts (s : ParameterScan) (ps : List HttpParameter) :
    (ps.foldl ParameterScan.add s).bodyCount =
      s.bodyCount + ps.countP (fun p => p.source = .body) ∧
    (ps.foldl ParameterScan.add s).bodyFieldCount =
      s.bodyFieldCount + ps.countP (fun p => p.source = .bodyField) := by
  induction ps generalizing s with
  | nil => simp
  | cons p ps ih =>
    rw [List.foldl_cons, (ih _).1, (ih _).2, List.countP_cons, List.countP_cons]
    simp only [ParameterScan.add, decide_eq_true_eq]
    omega

theorem sameNames_iff (a b : List Text) : sameNames a b = true ↔ ∀ n, n ∈ a ↔ n ∈ b := by
  simp only [sameNames, Bool.and_eq_true, List.all_eq_true, List.contains_iff_mem]
  constructor
  · rintro ⟨hab, hba⟩ n
    exact ⟨hab n, hba n⟩
  · intro h
    exact ⟨fun n hn => (h n).mp hn, fun n hn => (h n).mpr hn⟩

theorem validateHttpOperation_spec {method : Method} {path : Text} {ps : List HttpParameter}
    (h : validateHttpOperation method path ps = .ok ()) :
    ∃ placeholders, validateHttpRoute path = .ok placeholders ∧
      (ps.map HttpParameter.name).Nodup ∧
      (∀ p ∈ ps, p.cardinality = .repeated → p.source = .query) ∧
      ps.countP (fun p => p.source = .queryMap) ≤ 1 ∧
      ps.countP (fun p => p.source = .headerMap) ≤ 1 ∧
      (ps.countP (fun p => p.source = .body) = 0 ∨ ps.countP (fun p => p.source = .body) = 1 ∧
        ps.countP (fun p => p.source = .bodyField) = 0) ∧
      ∀ n, n ∈ placeholders ↔ ∃ p ∈ ps, p.source = .path ∧ p.name = n := by
  unfold validateHttpOperation at h
  split at h
  · cases h
  split at h
  · cases h
  rename_i placeholders hroute
  split at h
  · cases h
  rename_i s hscan
  obtain ⟨hs, hnd, hrep⟩ := scanParameters_spec hscan
  have hnames := foldl_add_names ⟨[], [], 0, 0, 0, 0⟩ ps
  have hpaths := foldl_add_pathParameters ⟨[], [], 0, 0, 0, 0⟩ ps
  have hcounts := foldl_add_mapCounts ⟨[], [], 0, 0, 0, 0⟩ ps
  have hbodies := foldl_add_bodyCounts ⟨[], [], 0, 0, 0, 0⟩ ps
  rw [← hs] at hnames hpaths hcounts hbodies
  split at h
  · cases h
  split at h
  · cases h
  split at h
  · cases h
  split at h
  · cases h
  split at h
  · cases h
  split at h
  · cases h
  rename_i hbodies1 hbody hqm hhm _ hsame
  refine ⟨placeholders, hroute, ?_, hrep, by omega, by omega, by omega, ?_⟩
  · have := hnd (by simp)
    rw [hnames] at this
    simpa using this
  · rw [Bool.not_eq_true, Bool.not_eq_false', sameNames_iff, hpaths] at hsame
    intro n
    rw [hsame n]
    simp [and_assoc]

namespace HttpOperation

variable (op : HttpOperation)

def segments : List Text := parts '/' op.path

def placeholders : List Text := op.segments.filterMap stripBraces

theorem names_nodup : (op.parameters.map HttpParameter.name).Nodup := by
  obtain ⟨-, -, h, -⟩ := validateHttpOperation_spec op.valid
  exact h

theorem eq_of_name_eq {p q : HttpParameter} (hp : p ∈ op.parameters) (hq : q ∈ op.parameters)
    (h : p.name = q.name) : p = q :=
  List.inj_on_of_nodup_map op.names_nodup hp hq h

theorem countP_queryMap_le : op.parameters.countP (fun p => p.source = .queryMap) ≤ 1 := by
  obtain ⟨-, -, -, -, h, -⟩ := validateHttpOperation_spec op.valid
  exact h

theorem countP_headerMap_le : op.parameters.countP (fun p => p.source = .headerMap) ≤ 1 := by
  obtain ⟨-, -, -, -, -, h, -⟩ := validateHttpOperation_spec op.valid
  exact h

theorem countP_body : op.parameters.countP (fun p => p.source = .body) = 0 ∨
    op.parameters.countP (fun p => p.source = .body) = 1 ∧
      op.parameters.countP (fun p => p.source = .bodyField) = 0 := by
  obtain ⟨-, -, -, -, -, -, h, -⟩ := validateHttpOperation_spec op.valid
  exact h

theorem nodup : op.parameters.Nodup := op.names_nodup.of_map

theorem eq_of_countP_le {P : HttpParameter → Bool} {ps : List HttpParameter}
    (h : ps.countP P ≤ 1) {p q : HttpParameter} (hp : p ∈ ps) (hq : q ∈ ps) (hpP : P p = true)
    (hqP : P q = true) : p = q := by
  rw [List.countP_eq_length_filter] at h
  have hp' : p ∈ ps.filter P := List.mem_filter.mpr ⟨hp, hpP⟩
  have hq' : q ∈ ps.filter P := List.mem_filter.mpr ⟨hq, hqP⟩
  generalize ps.filter P = l at h hp' hq'
  match l, h with
  | [x], _ => rw [List.mem_singleton.mp hp', List.mem_singleton.mp hq']

theorem eq_of_queryMap {p q : HttpParameter} (hp : p ∈ op.parameters) (hq : q ∈ op.parameters)
    (hps : p.source = .queryMap) (hqs : q.source = .queryMap) : p = q :=
  eq_of_countP_le op.countP_queryMap_le hp hq (by simpa using hps) (by simpa using hqs)

theorem eq_of_headerMap {p q : HttpParameter} (hp : p ∈ op.parameters) (hq : q ∈ op.parameters)
    (hps : p.source = .headerMap) (hqs : q.source = .headerMap) : p = q :=
  eq_of_countP_le op.countP_headerMap_le hp hq (by simpa using hps) (by simpa using hqs)

theorem eq_of_body {p q : HttpParameter} (hp : p ∈ op.parameters) (hq : q ∈ op.parameters)
    (hps : p.source = .body) (hqs : q.source = .body) : p = q := by
  have hle : op.parameters.countP (fun p => p.source = .body) ≤ 1 := by
    rcases op.countP_body with h | h <;> omega
  exact eq_of_countP_le hle hp hq (by simpa using hps) (by simpa using hqs)

/-- A complete body excludes synthesized fields. -/
theorem not_body_of_bodyField {p q : HttpParameter} (hp : p ∈ op.parameters)
    (hq : q ∈ op.parameters) (hps : p.source = .bodyField) : q.source ≠ .body := by
  intro hqs
  have hfield : 0 < op.parameters.countP (fun p => p.source = .bodyField) :=
    List.countP_pos_iff.mpr ⟨p, hp, by simpa using hps⟩
  have hbody : 0 < op.parameters.countP (fun p => p.source = .body) :=
    List.countP_pos_iff.mpr ⟨q, hq, by simpa using hqs⟩
  rcases op.countP_body with h | h <;> omega

theorem route_spec : joinParts '/' op.segments = op.path ∧ '?' ∉ op.path ∧ op.placeholders.Nodup ∧
    (∀ s ∈ op.segments, IsRouteSegment s) ∧
    ∀ n, n ∈ op.placeholders ↔ ∃ p ∈ op.parameters, p.source = .path ∧ p.name = n := by
  obtain ⟨phs, hroute, -, -, -, -, -, hmem⟩ := validateHttpOperation_spec op.valid
  obtain ⟨hjoin, hquery, hphs, hnd, hseg⟩ := validateHttpRoute_spec hroute
  rw [hphs] at hnd hmem
  exact ⟨hjoin, hquery, hnd, hseg, hmem⟩

end HttpOperation

end Fusen.Contract
