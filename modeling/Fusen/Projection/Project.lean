import Fusen.Lib.Metered
import Fusen.Lib.SortedMap
import Fusen.Lib.Word
import Fusen.Projection.Shape
import Mathlib.Data.Char
import Mathlib.Data.List.Lex

/-!
# Projections (`projection.rs`)

A `Projector` visits a value along its shape, asks the sanitizer about every classified
part and builds the view from the answers.  The recursion along a value is bounded by
fuel, of which `projectionFuel` is enough; the look-ahead along the schema counts the
levels it may still go down.  Any failure, panics included, omits the view as a whole.
-/

namespace Fusen.Projection

open Lib Metered

def REDACTED : Text := "<redacted>".toList

inductive ProjectionDirection where
  | serialize
  | deserialize
deriving DecidableEq, Repr

def ProjectionDirection.fields {α : Type} (direction : ProjectionDirection)
    (serialize deserialize : List α) : List α :=
  match direction with
  | .serialize => serialize
  | .deserialize => deserialize

inductive Projected where
  | omitted
  | value (value : Json)

inductive InheritedClassification where
  | opaqueValue
  | kind (kind : SensitivityKind)

/-- What stays fixed in a projection. -/
structure Projector (ρ : Type) where
  schema : Schema ρ
  sanitize : List Decision → SanitizationContext → Option Sanitization
  target : SanitizationTarget
  direction : ProjectionDirection
  limits : ProjectionLimits

abbrev Projecting (α : Type) := Metered Decision α

/-- `push_path_segment` -/
def pushPathSegment (path segment : Text) : Text :=
  path ++ '/' :: segment.flatMap fun c =>
    if c = '~' then ['~', '0'] else if c = '/' then ['~', '1'] else [c]

namespace Projector

variable {ρ : Type} (p : Projector ρ)

/-! ## Limits on values -/

def visit (depth : Nat) : Projecting Unit := do
  require (depth ≤ p.limits.maxDepth)
  let visited ← orFail (Usize.checkedAdd (← get).visited 1)
  modify fun st => { st with visited }
  require (visited ≤ p.limits.maxNodes)

mutual

def validateDescendants : Json → Nat → Projecting Unit
  | .null, _ | .bool _, _ | .number _, _ => pure ()
  | .string value, _ => require ((utf8 value).length ≤ p.limits.maxStringBytes)
  | .array values, depth => do
    require (values.length ≤ p.limits.maxArrayItems)
    validateItems values (depth + 1)
  | .object values, depth => validateMembers values (depth + 1)

/-- `validate_value` for each of the items. -/
def validateItems : List Json → Nat → Projecting Unit
  | [], _ => pure ()
  | value :: values, depth => do
    p.visit depth
    validateDescendants value depth
    validateItems values depth

def validateMembers : List (Text × Json) → Nat → Projecting Unit
  | [], _ => pure ()
  | (name, value) :: values, depth => do
    require ((utf8 name).length ≤ p.limits.maxStringBytes)
    p.visit depth
    validateDescendants value depth
    validateMembers values depth

end

def validateValue (value : Json) (depth : Nat) : Projecting Unit := do
  p.visit depth
  p.validateDescendants value depth

/-! ## Looking ahead in the schema -/

/-- `room` is how many more levels of the schema may be entered; it is
`max_depth + 1 - schema_depth`. -/
def inheritedClassification :
    (room : Nat) → SensitiveShape ρ → Option (Option InheritedClassification)
  | 0, _ => none
  | _ + 1, .opaqueValue => some (some .opaqueValue)
  | _ + 1, .kind kind => some (some (.kind kind))
  | _ + 1, .fields _ _ => some none
  | room + 1, .optional resolver | room + 1, .sequence resolver
  | room + 1, .fixedSequence resolver _ =>
    (p.schema resolver).bind (inheritedClassification room)

/-- Whether one of the fields has a classified value, as far as the first that has. -/
def anyClassified (classified : SensitiveShape ρ → Option Bool) :
    List (SensitiveField ρ) → Option Bool
  | [] => some false
  | field :: fields => do
    if ← (p.schema field.resolver).bind classified then some true
    else anyClassified classified fields

def hasClassifiedValue : (room : Nat) → SensitiveShape ρ → Option Bool
  | 0, _ => none
  | _ + 1, .opaqueValue => some false
  | _ + 1, .kind _ => some true
  | room + 1, .fields serialize deserialize =>
    p.anyClassified (hasClassifiedValue room) (p.direction.fields serialize deserialize)
  | room + 1, .optional resolver | room + 1, .sequence resolver
  | room + 1, .fixedSequence resolver _ =>
    (p.schema resolver).bind (hasClassifiedValue room)

def inherited (shape : SensitiveShape ρ) : Option (Option InheritedClassification) :=
  p.inheritedClassification (p.limits.maxDepth + 1) shape

/-! ## Values of an inherited classification -/

/-- The loop of `validate_sequence` and of `project_sequence` that validates each item. -/
def validateShapes (validate : Json → SensitiveShape ρ → Nat → Projecting Unit)
    (element : SensitiveShape ρ) (depth : Nat) : List Json → Projecting Unit
  | [] => pure ()
  | value :: values => do
    p.visit depth
    validate value element depth
    validateShapes validate element depth values

/-- The array that a sequence is, if its length is allowed. -/
def sequenceItems (value : Json) (requiredLength : Option Nat) : Projecting (List Json) :=
  match value with
  | .array values => do
    require (values.length ≤ p.limits.maxArrayItems ∧
      requiredLength.all fun length => values.length = length)
    pure values
  | _ => fail

def validateSequence (validate : Json → SensitiveShape ρ → Nat → Projecting Unit) (value : Json)
    (resolver : ρ) (requiredLength : Option Nat) (depth : Nat) : Projecting Unit := do
  let values ← p.sequenceItems value requiredLength
  let element ← orFail (p.schema resolver)
  p.validateShapes validate element (depth + 1) values

def validateShapeVisited : (fuel : Nat) → Json → SensitiveShape ρ → Nat → Projecting Unit
  | 0, _, _, _ => throw .fuel
  | _ + 1, _, .opaqueValue, _ => pure ()
  | _ + 1, value, .kind _, depth => p.validateDescendants value depth
  | fuel + 1, value, .optional resolver, depth =>
    match value with
    | .null => pure ()
    | value => do
      let inner ← orFail (p.schema resolver)
      validateShapeVisited fuel value inner depth
  | fuel + 1, value, .sequence resolver, depth =>
    p.validateSequence (validateShapeVisited fuel) value resolver none depth
  | fuel + 1, value, .fixedSequence element length, depth =>
    p.validateSequence (validateShapeVisited fuel) value element (some length) depth
  | _ + 1, .object _, .fields _ _, _ => pure ()
  | _ + 1, _, .fields _ _, _ => fail

/-! ## The traversal -/

def sanitizeClassified (value : Json) (kind : SensitivityKind) (depth : Nat) (path : Text) :
    Projecting Projected := do
  let context : SanitizationContext := ⟨p.target, path, kind, value⟩
  let answer ← orFail (p.sanitize (← get).log context)
  record ⟨context, depth, answer⟩
  match answer with
  | .omitted => pure .omitted
  | .redact => pure (.value (.string REDACTED))
  | .reveal => pure (.value value)
  | .replace replacement => do
    p.validateValue replacement depth
    pure (.value replacement)

/-- The fields of an object, with the names declared and the view built so far. -/
def projectFields (project : Json → SensitiveShape ρ → Nat → Text → Projecting Projected)
    (values : List (Text × Json)) (depth : Nat) (path : Text) :
    List (SensitiveField ρ) → List Text → List (Text × Json) → Projecting (List (Text × Json))
  | [], _, projected => pure projected
  | field :: fields, declared, projected => do
    require (field.name ∉ declared)
    match Assoc.get values field.name with
    | none => projectFields project values depth path fields (field.name :: declared) projected
    | some value =>
      let shape ← orFail (p.schema field.resolver)
      p.visit depth
      match ← project value shape depth (pushPathSegment path field.name) with
      | .omitted => projectFields project values depth path fields (field.name :: declared) projected
      | .value value =>
        projectFields project values depth path fields (field.name :: declared)
          (SortedMap.insert field.name value projected)

/-- The items of an array, without those omitted. -/
def projectItems (project : Json → SensitiveShape ρ → Nat → Text → Projecting Projected)
    (element : SensitiveShape ρ) (depth : Nat) (path : Text) : List Json → Projecting (List Json)
  | [] => pure []
  | value :: values => do
    p.visit depth
    match ← project value element depth path with
    | .omitted => projectItems project element depth path values
    | .value value => do
      let projected ← projectItems project element depth path values
      pure (value :: projected)

def projectSequence (project : Json → SensitiveShape ρ → Nat → Text → Projecting Projected)
    (validate : Json → SensitiveShape ρ → Nat → Projecting Unit) (value : Json) (resolver : ρ)
    (requiredLength : Option Nat) (depth : Nat) (path : Text) : Projecting Projected := do
  let values ← p.sequenceItems value requiredLength
  let element ← orFail (p.schema resolver)
  match ← orFail (p.inherited element) with
  | some .opaqueValue => pure .omitted
  | some (.kind kind) => do
    p.validateShapes validate element (depth + 1) values
    p.sanitizeClassified value kind depth path
  | none => do
    let projected ← p.projectItems project element (depth + 1) path values
    if projected = [] then
      if values = [] then
        if ← orFail (p.hasClassifiedValue (p.limits.maxDepth + 1) element) then
          pure (.value (.array []))
        else pure .omitted
      else pure .omitted
    else pure (.value (.array projected))

/-- `project_visited`; `project` visits first. -/
def projectVisited : (fuel : Nat) → Json → SensitiveShape ρ → Nat → Text → Projecting Projected
  | 0, _, _, _, _ => throw .fuel
  | _ + 1, _, .opaqueValue, _, _ => pure .omitted
  | _ + 1, value, .kind kind, depth, path => do
    p.validateDescendants value depth
    p.sanitizeClassified value kind depth path
  | fuel + 1, value, .fields serialize deserialize, depth, path =>
    match value with
    | .object values => do
      let projected ← p.projectFields (projectVisited fuel) values (depth + 1) path
        (p.direction.fields serialize deserialize) [] []
      if projected = [] then pure .omitted else pure (.value (.object projected))
    | _ => fail
  | fuel + 1, value, .optional resolver, depth, path => do
    let inner ← orFail (p.schema resolver)
    match ← orFail (p.inherited inner) with
    | some .opaqueValue => pure .omitted
    | some (.kind kind) => do
      p.validateShapeVisited fuel value (.optional resolver) depth
      p.sanitizeClassified value kind depth path
    | none =>
      match value with
      | .null => pure .omitted
      | value => projectVisited fuel value inner depth path
  | fuel + 1, value, .sequence resolver, depth, path =>
    p.projectSequence (projectVisited fuel) (p.validateShapeVisited fuel) value resolver none
      depth path
  | fuel + 1, value, .fixedSequence element length, depth, path =>
    p.projectSequence (projectVisited fuel) (p.validateShapeVisited fuel) value element
      (some length) depth path

def project (fuel : Nat) (value : Json) (shape : SensitiveShape ρ) (depth : Nat) (path : Text) :
    Projecting Projected := do
  p.visit depth
  p.projectVisited fuel value shape depth path

/-- Enough for every value and schema, by `settles_project`. -/
def projectionFuel : Nat := (p.limits.maxDepth + 2) * (p.limits.maxDepth + 4)

def finish (projected : Projected) : Option SanitizedValue :=
  match projected with
  | .omitted => some .omitted
  | .value value =>
    if (utf8 value.print).length > p.limits.maxOutputBytes then none else some (.projected value)

/-- The loop over the declared arguments: fields of the arguments at depth zero. -/
def projectArguments (fuel : Nat) (arguments : List (Text × Json))
    (declared : List (SensitiveField ρ)) : Projecting Projected := do
  let projected ← p.projectFields (p.projectVisited fuel) arguments 0 [] declared [] []
  if projected = [] then pure .omitted else pure (.value (.object projected))

end Projector

/-! ## Requests and responses -/

/-- The end of a projection with its decisions; none is a failure or a panic. -/
abbrev Run := Except Stop (Projected × Meter Decision)

def start : Meter Decision := ⟨0, []⟩

/-- `fail_closed` of `finish`. -/
def Run.failClosed {ρ : Type} (p : Projector ρ) (run : Run) : SanitizedValue :=
  match run with
  | .ok (projected, _) => (p.finish projected).getD .omitted
  | .error _ => .omitted

section

variable {ρ : Type} (schema : Schema ρ)

/-- `Projector::new`, when the limits are there. -/
def Projector.new (sanitizer : Sanitizer) (target : SanitizationTarget)
    (direction : ProjectionDirection) (limits : ProjectionLimits) : Projector ρ :=
  ⟨schema, sanitizer.sanitize, target, direction, limits⟩

def sanitizeArguments (sensitivity : Option (MethodSensitivity ρ))
    (arguments : List (Text × Json)) (direction : ProjectionDirection) (sanitizer : Sanitizer) :
    SanitizedValue :=
  match sensitivity, sanitizer.limits with
  | some sensitivity, some limits =>
    let p := Projector.new schema sanitizer .arguments direction limits
    Run.failClosed p
      ((p.projectArguments p.projectionFuel arguments sensitivity.arguments).run start)
  | _, _ => .omitted

/-- `parse` reads the JSON of a body. -/
def sanitizeResponse (parse : List UInt8 → Option Json)
    (sensitivity : Option (MethodSensitivity ρ)) (bytes : List UInt8)
    (direction : Option ProjectionDirection) (sanitizer : Sanitizer) : SanitizedValue :=
  match direction, (sensitivity.bind MethodSensitivity.response).bind schema, sanitizer.limits with
  | some _, some .opaqueValue, _ => .omitted
  | some direction, some shape, some limits =>
    let p := Projector.new schema sanitizer .response direction limits
    if bytes.length > limits.maxInputBytes then .omitted
    else
      match parse bytes with
      | none => .omitted
      | some value => Run.failClosed p ((p.project p.projectionFuel value shape 0 []).run start)
  | _, _, _ => .omitted

end

end Fusen.Projection
