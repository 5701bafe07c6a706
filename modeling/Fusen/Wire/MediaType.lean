import Fusen.Wire.Controls

/-!
# JSON media types (`wire/mod.rs`)

A body is accepted under any JSON media type of `application`, whatever the declared one is;
`mediaTypeMatches_iff` says when the declared one is.
-/

namespace Fusen.Wire

open Lib

/-- A parsed media type of the `mime` crate; the suffix is what follows a `+`. -/
structure Mime where
  type : Text
  subtype : Text
  suffix : Option Text
deriving DecidableEq

def isJsonMime (value : Mime) : Bool :=
  value.type = "application".toList && value.subtype ≠ "*".toList &&
    match value.suffix with
    | some suffix => suffix = "json".toList
    | none => value.subtype = "json".toList

section

variable (parseMime : Text → Option Mime)

def isJsonMediaType (value : Text) : Bool := (parseMime value).any isJsonMime

def mediaTypeMatches (value : HeaderValue) (expected : Text) : Bool :=
  match parseMime (value.toStr.getD []) with
  | none => false
  | some actual =>
    match parseMime expected with
    | none => false
    | some expected => isJsonMime actual && isJsonMime expected

def invalidContentType (expected : Text) : Error :=
  .framework .invalidArgument "invalid_content_type"
    ("request Content-Type must be a JSON application media type compatible with ".toList ++
      expected)

def validateContentType (headers : HeaderMap) (expected : Text) (bodyRequired : Bool) :
    Except Error Unit := do
  match ← oneHeader headers contentType with
  | some value =>
    if mediaTypeMatches parseMime value expected then .ok ()
    else .error (invalidContentType expected)
  | none => if bodyRequired then .error (invalidContentType expected) else .ok ()

variable {parseMime}

theorem validateContentType_eq_ok_iff {headers : HeaderMap} {expected : Text}
    {bodyRequired : Bool} :
    validateContentType parseMime headers expected bodyRequired = .ok () ↔
      (headers.getAll contentType = [] ∧ bodyRequired = false) ∨
        ∃ value, headers.getAll contentType = [value] ∧
          mediaTypeMatches parseMime value expected = true := by
  unfold validateContentType oneHeader
  rcases headers.getAll contentType with _ | ⟨value, _ | ⟨value', rest⟩⟩
  · cases bodyRequired <;> simp [bind, Except.bind]
  · by_cases hmatch : mediaTypeMatches parseMime value expected = true
    · simp [bind, Except.bind, hmatch]
    · simp [bind, Except.bind, hmatch]
  · simp [bind, Except.bind]

/-- A JSON media type matches itself, when a header carries it as text. -/
theorem mediaTypeMatches_iff (hempty : parseMime [] = none) {value : HeaderValue} {text : Text}
    (hvalue : HeaderValue.fromStr text = some value)
    (hjson : isJsonMediaType parseMime text = true) :
    mediaTypeMatches parseMime value text = true ↔ text.all isVisibleChar = true := by
  obtain ⟨mime, hmime, hj⟩ := (Option.any_eq_true _ _).mp hjson
  unfold mediaTypeMatches
  rw [HeaderValue.toStr_fromStr hvalue]
  by_cases hvis : text.all isVisibleChar = true
  · rw [if_pos hvis, Option.getD_some, hmime]
    simpa [hvis] using hj
  · rw [if_neg hvis, Option.getD_none, hempty]
    simp [hvis]

end

end Fusen.Wire
