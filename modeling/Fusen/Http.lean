import Fusen.Lib.Text
import Mathlib.Data.List.Nodup

/-!
# HTTP vocabulary

Methods, status codes, header names, header values and header maps, as far as the
runtime uses them.  Names are kept in lower case, values are bytes.  A map is a list
of entries; the order of the values of one name is kept, the order of the names is
not observed.  The bound on the number of entries of a map is not modelled.
-/

namespace Fusen

open Lib

inductive Method
  | get | post | put | patch | delete | head | options
  | extension (name : Text)
deriving DecidableEq, Repr

structure StatusCode where
  code : Nat
  valid : 100 ≤ code ∧ code ≤ 999
deriving DecidableEq

namespace StatusCode

abbrev badRequest : StatusCode := ⟨400, by decide⟩
abbrev unauthorized : StatusCode := ⟨401, by decide⟩
abbrev forbidden : StatusCode := ⟨403, by decide⟩
abbrev notFound : StatusCode := ⟨404, by decide⟩
abbrev conflict : StatusCode := ⟨409, by decide⟩
abbrev payloadTooLarge : StatusCode := ⟨413, by decide⟩
abbrev tooManyRequests : StatusCode := ⟨429, by decide⟩
abbrev internalServerError : StatusCode := ⟨500, by decide⟩
abbrev notImplemented : StatusCode := ⟨501, by decide⟩
abbrev badGateway : StatusCode := ⟨502, by decide⟩
abbrev serviceUnavailable : StatusCode := ⟨503, by decide⟩
abbrev gatewayTimeout : StatusCode := ⟨504, by decide⟩

def isSuccess (s : StatusCode) : Bool := 200 ≤ s.code && s.code < 300
def isClientError (s : StatusCode) : Bool := 400 ≤ s.code && s.code < 500
def isServerError (s : StatusCode) : Bool := 500 ≤ s.code && s.code < 600

end StatusCode

/-! ## Request targets -/

def uriPath (pathAndQuery : Text) : Text := pathAndQuery.takeWhile (· ≠ '?')

def uriQuery (pathAndQuery : Text) : Option Text := (splitOnce '?' pathAndQuery).map Prod.snd

theorem uriPath_append {path : Text} (h : '?' ∉ path) (query : Text) :
    uriPath (path ++ '?' :: query) = path := by
  unfold uriPath
  rw [List.takeWhile_append_of_pos]
  · simp
  · intro c hc
    rw [decide_eq_true_eq]
    rintro rfl
    exact h hc

theorem uriPath_self {path : Text} (h : '?' ∉ path) : uriPath path = path := by
  rw [uriPath, List.takeWhile_eq_self_iff]
  intro c hc
  rw [decide_eq_true_eq]
  rintro rfl
  exact h hc

theorem uriQuery_append {path : Text} (h : '?' ∉ path) (query : Text) :
    uriQuery (path ++ '?' :: query) = some query := by
  rw [uriQuery, splitOnce_append h]
  rfl

theorem uriQuery_self {path : Text} (h : '?' ∉ path) : uriQuery path = none := by
  rw [uriQuery, splitOnce_eq_none h]
  rfl

/-! ## Header names -/

def isTokenChar (c : Char) : Bool :=
  c.isAlphanum || "!#$%&'*+-.^_`|~".toList.contains c

def isHeaderName (s : Text) : Bool :=
  s ≠ [] && s.length ≤ 65535 && s.all fun c => isTokenChar c && !c.isUpper

structure HeaderName where
  text : Text
  valid : isHeaderName text = true
deriving DecidableEq

/-- `HeaderName::from_bytes`: case is folded. -/
def HeaderName.fromBytes (s : Text) : Option HeaderName :=
  if h : isHeaderName (s.map Char.toLower) = true then some ⟨s.map Char.toLower, h⟩ else none

theorem HeaderName.fromBytes_eq_some_iff {s : Text} {n : HeaderName} :
    fromBytes s = some n ↔ n.text = s.map Char.toLower := by
  unfold fromBytes
  constructor
  · intro h
    split at h
    · cases h
      rfl
    · cases h
  · intro h
    have hvalid : isHeaderName (s.map Char.toLower) = true := h ▸ n.valid
    rw [dif_pos hvalid, Option.some.injEq]
    cases n
    cases h
    rfl

/-! ## Header values -/

def isHeaderByte (b : UInt8) : Bool := (32 ≤ b.toNat && b.toNat ≠ 127) || b.toNat = 9

def isVisibleByte (b : UInt8) : Bool := (32 ≤ b.toNat && b.toNat < 127) || b.toNat = 9

def isVisibleChar (c : Char) : Bool := (32 ≤ c.toNat && c.toNat < 127) || c.toNat = 9

structure HeaderValue where
  bytes : List UInt8
  valid : bytes.all isHeaderByte = true
deriving DecidableEq

namespace HeaderValue

def fromStr (s : Text) : Option HeaderValue :=
  if h : (utf8 s).all isHeaderByte = true then some ⟨utf8 s, h⟩ else none

/-- Only visible ASCII and tabs are readable as text. -/
def toStr (v : HeaderValue) : Option Text :=
  if v.bytes.all isVisibleByte then some (v.bytes.map fun b => Char.ofNat b.toNat) else none

end HeaderValue

theorem isVisibleByte_ascii (c : Char) (h : c.toNat < 128) :
    isVisibleByte (UInt8.ofNat c.toNat) = isVisibleChar c := by
  unfold isVisibleByte isVisibleChar
  rw [UInt8.toNat_ofNat', Nat.mod_eq_of_lt (by omega)]

theorem isVisibleByte_of_le {b : UInt8} (h : 128 ≤ b.toNat) : isVisibleByte b = false := by
  simp only [isVisibleByte, Bool.or_eq_false_iff, Bool.and_eq_false_imp, decide_eq_true_eq,
    decide_eq_false_iff_not]
  omega

theorem isVisibleChar_of_le {c : Char} (h : 128 ≤ c.toNat) : isVisibleChar c = false := by
  simp only [isVisibleChar, Bool.or_eq_false_iff, Bool.and_eq_false_imp, decide_eq_true_eq,
    decide_eq_false_iff_not]
  omega

theorem all_isVisibleByte_utf8 (s : Text) : (utf8 s).all isVisibleByte = s.all isVisibleChar := by
  induction s with
  | nil => rfl
  | cons c s ih =>
    rw [utf8_cons, List.all_append, List.all_cons, ih]
    by_cases h : c.toNat < 128
    · rw [utf8EncodeChar_ascii c h]
      simp [isVisibleByte_ascii c h]
    · have hle : 128 ≤ c.toNat := by omega
      obtain ⟨b, bs, hb⟩ := List.exists_cons_of_ne_nil (String.utf8EncodeChar_ne_nil (c := c))
      have hmem : b ∈ String.utf8EncodeChar c := by simp [hb]
      have hfalse := isVisibleByte_of_le (le_of_mem_utf8EncodeChar c hle b hmem)
      rw [hb, List.all_cons, hfalse, isVisibleChar_of_le hle]
      simp

theorem map_ofNat_utf8 {s : Text} (h : s.all isVisibleChar = true) :
    (utf8 s).map (fun b => Char.ofNat b.toNat) = s := by
  induction s with
  | nil => rfl
  | cons c s ih =>
    rw [List.all_cons, Bool.and_eq_true] at h
    have hlt : c.toNat < 128 := by
      by_contra hge
      rw [isVisibleChar_of_le (by omega)] at h
      exact absurd h.1 (by simp)
    rw [utf8_cons, utf8EncodeChar_ascii c hlt, List.map_append, ih h.2]
    rw [List.map_singleton, UInt8.toNat_ofNat', Nat.mod_eq_of_lt (by omega), Char.ofNat_toNat]
    rfl

/-- What a value written from text reads back as. -/
theorem HeaderValue.toStr_fromStr {s : Text} {v : HeaderValue} (h : fromStr s = some v) :
    v.toStr = if s.all isVisibleChar then some s else none := by
  unfold fromStr at h
  split at h
  · cases h
    unfold toStr
    rw [all_isVisibleByte_utf8]
    split
    · rw [map_ofNat_utf8 (by assumption)]
    · rfl
  · cases h

/-! ## Header maps -/

structure HeaderMap where
  entries : List (HeaderName × HeaderValue)
deriving DecidableEq

namespace HeaderMap

def empty : HeaderMap := ⟨[]⟩

def getAll (m : HeaderMap) (name : HeaderName) : List HeaderValue :=
  (m.entries.filter fun e => e.1 = name).map Prod.snd

def containsKey (m : HeaderMap) (name : HeaderName) : Bool := m.entries.any fun e => e.1 = name

def remove (m : HeaderMap) (name : HeaderName) : HeaderMap :=
  ⟨m.entries.filter fun e => e.1 ≠ name⟩

def append (m : HeaderMap) (name : HeaderName) (v : HeaderValue) : HeaderMap :=
  ⟨m.entries ++ [(name, v)]⟩

/-- The value replaces every earlier one of that name. -/
def insert (m : HeaderMap) (name : HeaderName) (v : HeaderValue) : HeaderMap :=
  (m.remove name).append name v

theorem mem_getAll {m : HeaderMap} {e : HeaderName × HeaderValue} (h : e ∈ m.entries) :
    e.2 ∈ m.getAll e.1 :=
  List.mem_map.mpr ⟨e, List.mem_filter.mpr ⟨h, by simp⟩, rfl⟩

@[simp] theorem getAll_empty (n : HeaderName) : empty.getAll n = [] := rfl

theorem getAll_append (m : HeaderMap) (name n : HeaderName) (v : HeaderValue) :
    (m.append name v).getAll n = m.getAll n ++ if name = n then [v] else [] := by
  unfold append getAll
  by_cases h : name = n <;> simp [h]

theorem getAll_remove (m : HeaderMap) (name n : HeaderName) :
    (m.remove name).getAll n = if name = n then [] else m.getAll n := by
  unfold remove getAll
  rw [List.filter_filter]
  by_cases h : name = n
  · subst h
    simp
  · rw [if_neg h]
    congr 1
    apply List.filter_congr
    rintro e -
    by_cases he : e.1 = n <;> simp [he, Ne.symm h]

theorem getAll_insert (m : HeaderMap) (name n : HeaderName) (v : HeaderValue) :
    (m.insert name v).getAll n = if name = n then [v] else m.getAll n := by
  rw [insert, getAll_append, getAll_remove]
  split <;> simp

/-- Inserting under a name that is filtered out changes nothing that is kept. -/
theorem filter_insert (m : HeaderMap) (name : HeaderName) (v : HeaderValue)
    {keep : HeaderName → Bool} (h : keep name = false) :
    ((m.insert name v).entries.filter fun e => keep e.1) = m.entries.filter fun e => keep e.1 := by
  unfold insert append remove
  rw [List.filter_append, List.filter_filter, List.filter_singleton, h, cond_false, List.append_nil]
  apply List.filter_congr
  rintro ⟨n, w⟩ -
  by_cases hn : n = name
  · simp [hn, h]
  · simp [hn]

/-- A name that is not there is inserted at the end. -/
theorem entries_insert {m : HeaderMap} {name : HeaderName} (h : m.containsKey name = false)
    (v : HeaderValue) : (m.insert name v).entries = m.entries ++ [(name, v)] := by
  unfold containsKey at h
  show (m.entries.filter fun e => e.1 ≠ name) ++ [(name, v)] = _
  rw [List.filter_eq_self.mpr]
  intro e he
  rw [List.any_eq_false] at h
  simpa using h e he

theorem containsKey_eq_false_iff (m : HeaderMap) (name : HeaderName) :
    m.containsKey name = false ↔ m.getAll name = [] := by
  simp [containsKey, getAll]

end HeaderMap

end Fusen
