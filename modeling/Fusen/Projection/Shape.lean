import Fusen.Lib.Json

/-!
# Sensitivity shapes and policies (`sensitivity.rs`, `sensitive.rs`)

A shape names the resolvers of its parts, so that shapes may be recursive; what a resolver
returns is the schema, a function in which `none` is a panic.  A sanitizer may remember
what it was asked: its answer is a function of the decisions it has taken.
-/

namespace Fusen.Projection

open Lib

def MAX_SENSITIVITY_KIND_BYTES : Nat := 64

def isValidKind (value : Text) : Bool :=
  value ≠ [] && (utf8 value).length ≤ MAX_SENSITIVITY_KIND_BYTES &&
    (utf8 value).all fun b =>
      let c := Char.ofNat b.toNat
      b < 128 && (c.isAlphanum || c == '.' || c == '_' || c == '-')

structure SensitivityKind where
  label : Text
  valid : isValidKind label = true
deriving DecidableEq

namespace SensitivityKind

def PUBLIC : SensitivityKind := ⟨"public".toList, by decide⟩
def CREDENTIAL : SensitivityKind := ⟨"credential".toList, by decide⟩
def TOKEN : SensitivityKind := ⟨"token".toList, by decide⟩
def PHONE : SensitivityKind := ⟨"phone".toList, by decide⟩
def EMAIL : SensitivityKind := ⟨"email".toList, by decide⟩
def IDENTIFIER : SensitivityKind := ⟨"identifier".toList, by decide⟩
def SECRET : SensitivityKind := ⟨"secret".toList, by decide⟩

end SensitivityKind

/-! ## Shapes -/

/-- A field or an argument, by the resolver of its shape. -/
structure SensitiveField (ρ : Type) where
  name : Text
  resolver : ρ
deriving DecidableEq

inductive SensitiveShape (ρ : Type) where
  | opaqueValue
  | kind (kind : SensitivityKind)
  | fields (serialize deserialize : List (SensitiveField ρ))
  | optional (resolver : ρ)
  | sequence (resolver : ρ)
  | fixedSequence (element : ρ) (length : Nat)

abbrev Schema (ρ : Type) := ρ → Option (SensitiveShape ρ)

structure MethodSensitivity (ρ : Type) where
  arguments : List (SensitiveField ρ)
  response : Option ρ

/-! ## Policies -/

inductive SanitizationTarget where
  | arguments
  | response
deriving DecidableEq, Repr

structure SanitizationContext where
  target : SanitizationTarget
  path : Text
  kind : SensitivityKind
  value : Json

inductive Sanitization where
  | omitted
  | redact
  | reveal
  | replace (value : Json)

structure ProjectionLimits where
  maxInputBytes : Nat
  maxDepth : Nat
  maxNodes : Nat
  maxArrayItems : Nat
  maxStringBytes : Nat
  maxOutputBytes : Nat
deriving DecidableEq

def ProjectionLimits.default : ProjectionLimits where
  maxInputBytes := 64 * 1024
  maxDepth := 8
  maxNodes := 256
  maxArrayItems := 32
  maxStringBytes := 512
  maxOutputBytes := 16 * 1024

/-- What a sanitizer was asked, at which depth of the value, and what it answered. -/
structure Decision where
  context : SanitizationContext
  depth : Nat
  answer : Sanitization

/-- `none` is a panic. -/
structure Sanitizer where
  limits : Option ProjectionLimits
  sanitize : List Decision → SanitizationContext → Option Sanitization

structure PolicySanitizer where
  rules : List (Text × Sanitization)
  limits : ProjectionLimits

namespace PolicySanitizer

def default : PolicySanitizer where
  rules := (SensitivityKind.PUBLIC.label, .reveal) ::
    [SensitivityKind.CREDENTIAL, .TOKEN, .PHONE, .EMAIL, .IDENTIFIER, .SECRET].map
      fun kind => (kind.label, .redact)
  limits := .default

def toSanitizer (policy : PolicySanitizer) : Sanitizer where
  limits := some policy.limits
  sanitize _ context := some ((Assoc.get policy.rules context.kind.label).getD .omitted)

end PolicySanitizer

/-- `None` is the view that is omitted as a whole. -/
structure SanitizedValue where
  value : Option Json

def SanitizedValue.omitted : SanitizedValue := ⟨none⟩

def SanitizedValue.projected (value : Json) : SanitizedValue := ⟨some value⟩

end Fusen.Projection
