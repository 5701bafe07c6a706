import Fusen.Projection.Fuel

/-!
# What the limits ask of a value

`parts` are the values inside a value with their depths.  Every check of a value, along a
shape or not, takes one step for each of them and succeeds exactly if all are small and not
too deep (`denotes_validateDescendants`, `denotes_validateShapeVisited`).
-/

namespace Fusen.Projection

open Lib Metered

/-! ## Parts of a value -/

mutual

/-- The values inside a value, itself left out. -/
def below : Nat → Json → List (Nat × Json)
  | _, .null | _, .bool _ | _, .number _ | _, .string _ => []
  | depth, .array values => belowItems (depth + 1) values
  | depth, .object values => belowMembers (depth + 1) values

def belowItems : Nat → List Json → List (Nat × Json)
  | _, [] => []
  | depth, value :: values => (depth, value) :: (below depth value ++ belowItems depth values)

def belowMembers : Nat → List (Text × Json) → List (Nat × Json)
  | _, [] => []
  | depth, (_, value) :: values =>
    (depth, value) :: (below depth value ++ belowMembers depth values)

end

/-- A value and all inside it, each with its depth. -/
def parts (depth : Nat) (value : Json) : List (Nat × Json) := (depth, value) :: below depth value

namespace ProjectionLimits

variable (limits : ProjectionLimits)

/-- No string, array or member name of this value itself is too long. -/
def Small : Json → Prop
  | .null | .bool _ | .number _ => True
  | .string value => (utf8 value).length ≤ limits.maxStringBytes
  | .array values => values.length ≤ limits.maxArrayItems
  | .object values => ∀ e ∈ values, (utf8 e.1).length ≤ limits.maxStringBytes

def Allows (part : Nat × Json) : Prop := part.1 ≤ limits.maxDepth ∧ limits.Small part.2

/-- The value is small and so is all inside it, down to the allowed depth. -/
def Fits (depth : Nat) (value : Json) : Prop :=
  limits.Small value ∧ ∀ part ∈ below depth value, limits.Allows part

variable {limits}

theorem Fits.parts {depth : Nat} {value : Json} (h : limits.Fits depth value)
    (hdepth : depth ≤ limits.maxDepth) : ∀ part ∈ parts depth value, limits.Allows part := by
  intro part hpart
  rcases List.mem_cons.mp hpart with rfl | hpart
  · exact ⟨hdepth, h.1⟩
  · exact h.2 part hpart

end ProjectionLimits

namespace Projector

variable {ρ : Type} (p : Projector ρ)

/-! ## Steps and replies of a projection -/

/-- The visits there may be: their count is a machine word. -/
def budget : Nat := min p.limits.maxNodes (Usize.size - 1)

/-- A decision is what the sanitizer answers after those before it. -/
def Answers (history : List Decision) (decision : Decision) : Prop :=
  p.sanitize history decision.context = some decision.answer

abbrev Does {α : Type} (x : Projecting α) (effects : Effects Decision α) : Prop :=
  Denotes p.budget p.Answers x effects

theorem denotes_visit (depth : Nat) :
    p.Does (p.visit depth) (checks (depth ≤ p.limits.maxDepth) 1) := by
  intro st hst u st'
  rw [visit_ok]
  unfold budget
  constructor
  · rintro ⟨hdepth, hlt, hnodes, rfl⟩
    refine ⟨1, [], ⟨hdepth, rfl, rfl⟩, trivial, ?_, by rw [List.append_nil]⟩
    omega
  · rintro ⟨_, _, ⟨hdepth, rfl, rfl⟩, -, hle, rfl⟩
    refine ⟨hdepth, ?_, ?_, by rw [List.append_nil]⟩ <;> omega

theorem denotes_none : p.Does (pure ()) (checks True 0) :=
  (denotes_pure ()).congr fun _ _ _ => ⟨fun h => ⟨trivial, h.2⟩, fun h => ⟨rfl, h.2⟩⟩

theorem Does.checks {x : Projecting Unit} {q q' : Prop} {steps steps' : Nat}
    (h : p.Does x (checks q steps)) (hq : q ↔ q') (hsteps : steps = steps') :
    p.Does x (checks q' steps') := by
  subst hsteps
  exact h.congr fun _ _ _ => and_congr_left fun _ => hq

/-! ## Values of a kind -/

mutual

theorem denotes_validateDescendants (value : Json) (depth : Nat) :
    p.Does (p.validateDescendants value depth)
      (checks (p.limits.Fits depth value) (below depth value).length) := by
  cases value with
  | null | bool _ | number _ =>
    exact Does.checks p (denotes_none p) ⟨fun _ => ⟨trivial, nofun⟩, fun _ => trivial⟩ rfl
  | string value =>
    exact Does.checks p (denotes_require _) ⟨fun h => ⟨h, nofun⟩, fun h => h.1⟩ rfl
  | array values =>
    refine Does.checks p ((denotes_require _).thenCheck fun _ =>
      denotes_validateItems values (depth + 1)) Iff.rfl ?_
    rw [Nat.zero_add]
    rfl
  | object values =>
    exact Does.checks p (denotes_validateMembers values (depth + 1)) Iff.rfl rfl

theorem denotes_validateItems (values : List Json) (depth : Nat) :
    p.Does (p.validateItems values depth)
      (checks (∀ part ∈ belowItems depth values, p.limits.Allows part)
        (belowItems depth values).length) := by
  cases values with
  | nil => exact Does.checks p (denotes_none p) ⟨fun _ => nofun, fun _ => trivial⟩ rfl
  | cons value values =>
    refine Does.checks p ((denotes_visit p depth).thenCheck fun _ =>
      (denotes_validateDescendants value depth).thenCheck fun _ =>
        denotes_validateItems values depth) ?_ ?_
    · simp only [belowItems, List.forall_mem_cons, List.forall_mem_append, ProjectionLimits.Fits,
        ProjectionLimits.Allows, and_assoc]
    · simp only [belowItems, List.length_cons, List.length_append]
      omega

theorem denotes_validateMembers (values : List (Text × Json)) (depth : Nat) :
    p.Does (p.validateMembers values depth)
      (checks ((∀ e ∈ values, (utf8 e.1).length ≤ p.limits.maxStringBytes) ∧
          ∀ part ∈ belowMembers depth values, p.limits.Allows part)
        (belowMembers depth values).length) := by
  cases values with
  | nil =>
    exact Does.checks p (denotes_none p) ⟨fun _ => ⟨nofun, nofun⟩, fun _ => trivial⟩ rfl
  | cons value values =>
    obtain ⟨name, value⟩ := value
    refine Does.checks p ((denotes_require _).thenCheck fun _ =>
      (denotes_visit p depth).thenCheck fun _ =>
        (denotes_validateDescendants value depth).thenCheck fun _ =>
          denotes_validateMembers values depth) ?_ ?_
    · simp only [belowMembers, List.forall_mem_cons, List.forall_mem_append, ProjectionLimits.Fits,
        ProjectionLimits.Allows]
      tauto
    · simp only [belowMembers, List.length_cons, List.length_append]
      omega

end

theorem denotes_validateValue (value : Json) (depth : Nat) :
    p.Does (p.validateValue value depth)
      (checks (∀ part ∈ parts depth value, p.limits.Allows part) (parts depth value).length) := by
  refine Does.checks p ((denotes_visit p depth).thenCheck fun _ =>
    denotes_validateDescendants p value depth) ?_ (Nat.add_comm _ _)
  simp only [parts, List.forall_mem_cons, ProjectionLimits.Fits, ProjectionLimits.Allows, and_assoc]

/-! ## Values of an inherited classification -/

/-- The value has the form that optionals and sequences around a kind ask for. -/
inductive Conforms : Json → SensitiveShape ρ → Prop
  | kind (value : Json) (kind : SensitivityKind) : Conforms value (.kind kind)
  | null (resolver : ρ) : Conforms .null (.optional resolver)
  | optional {value : Json} {resolver : ρ} {inner : SensitiveShape ρ}
      (resolved : p.schema resolver = some inner) (conforms : Conforms value inner) :
      Conforms value (.optional resolver)
  | sequence {values : List Json} {resolver : ρ} {element : SensitiveShape ρ}
      (resolved : p.schema resolver = some element)
      (conforms : ∀ value ∈ values, Conforms value element) :
      Conforms (.array values) (.sequence resolver)
  | fixedSequence {values : List Json} {resolver : ρ} {element : SensitiveShape ρ} {length : Nat}
      (resolved : p.schema resolver = some element) (same : values.length = length)
      (conforms : ∀ value ∈ values, Conforms value element) :
      Conforms (.array values) (.fixedSequence resolver length)

/-- An array of an allowed length. -/
def Lists (value : Json) (requiredLength : Option Nat) (values : List Json) : Prop :=
  value = .array values ∧ values.length ≤ p.limits.maxArrayItems ∧
    requiredLength.all fun length => values.length = length

/-- What follows on the items of a sequence. -/
theorem Denotes.afterItems {α : Type} {value : Json} {requiredLength : Option Nat}
    {f : List Json → Projecting α} {after : List Json → Effects Decision α}
    (hf : ∀ values, p.Lists value requiredLength values → p.Does (f values) (after values)) :
    p.Does (p.sequenceItems value requiredLength >>= f) fun a n log =>
      ∃ values, p.Lists value requiredLength values ∧ after values a n log := by
  have hnone (h : ∀ values, value ≠ .array values) :
      p.Does (fail >>= f) fun a n log =>
        ∃ values, p.Lists value requiredLength values ∧ after values a n log := by
    refine (denotes_fail_bind f).congr fun a n log => ⟨False.elim, ?_⟩
    exact fun ⟨values, hlists, _⟩ => (h values hlists.1).elim
  cases value with
  | array values =>
    have hitems : p.sequenceItems (.array values) requiredLength >>= f =
        (do require (values.length ≤ p.limits.maxArrayItems ∧
              requiredLength.all fun length => values.length = length)
            f values) := by
      unfold sequenceItems
      rw [bind_assoc]
      simp only [pure_bind]
    rw [hitems]
    refine ((denotes_require _).afterCheck fun h => hf values ⟨rfl, h⟩).congr fun a n log => ?_
    constructor
    · rintro ⟨h, m, rfl, hafter⟩
      exact ⟨values, ⟨rfl, h⟩, (Nat.zero_add m).symm ▸ hafter⟩
    · rintro ⟨_, ⟨heq, h⟩, hafter⟩
      cases heq
      exact ⟨h, n, (Nat.zero_add n).symm, hafter⟩
  | null | bool _ | number _ | string _ | object _ => exact hnone fun _ h => by cases h

theorem denotes_validateShapes {validate : Json → SensitiveShape ρ → Nat → Projecting Unit}
    {element : SensitiveShape ρ} {depth : Nat} {form : Json → Prop}
    (h : ∀ value, p.Does (validate value element depth)
      (checks (p.limits.Fits depth value ∧ form value) (below depth value).length))
    (values : List Json) :
    p.Does (p.validateShapes validate element depth values)
      (checks ((∀ part ∈ belowItems depth values, p.limits.Allows part) ∧
        ∀ value ∈ values, form value) (belowItems depth values).length) := by
  induction values with
  | nil => exact Does.checks p (denotes_none p) ⟨fun _ => ⟨nofun, nofun⟩, fun _ => trivial⟩ rfl
  | cons value values ih =>
    refine Does.checks p ((denotes_visit p depth).thenCheck fun _ =>
      (h value).thenCheck fun _ => ih) ?_ ?_
    · simp only [belowItems, List.forall_mem_cons, List.forall_mem_append, ProjectionLimits.Fits,
        ProjectionLimits.Allows]
      tauto
    · simp only [belowItems, List.length_cons, List.length_append]
      omega

/-- **Validation along a shape asks no less than validation of the whole value.** -/
theorem denotes_validateShapeVisited {fuel room : Nat} (hle : room ≤ fuel)
    {shape : SensitiveShape ρ} {kind : SensitivityKind}
    (h : p.inheritedClassification room shape = some (some (.kind kind))) (value : Json)
    (depth : Nat) :
    p.Does (p.validateShapeVisited fuel value shape depth)
      (checks (p.limits.Fits depth value ∧ p.Conforms value shape) (below depth value).length) := by
  induction room generalizing shape value depth fuel with
  | zero => cases h
  | succ room ih =>
    obtain ⟨fuel, rfl⟩ : ∃ n, fuel = n + 1 := ⟨fuel - 1, by omega⟩
    have hle : room ≤ fuel := by omega
    have hsequence (resolver : ρ) (requiredLength : Option Nat)
        (h : (p.schema resolver).bind (p.inheritedClassification room) = some (some (.kind kind))) :
        p.Does (p.validateSequence (p.validateShapeVisited fuel) value resolver requiredLength depth)
          (checks (p.limits.Fits depth value ∧ ∃ values, value = .array values ∧
            requiredLength.all (fun length => values.length = length) ∧
              ∃ element, p.schema resolver = some element ∧
                ∀ value ∈ values, p.Conforms value element) (below depth value).length) := by
      have hvalidate (values : List Json) (element : SensitiveShape ρ)
          (helement : p.schema resolver = some element) :
          p.Does (p.validateShapes (p.validateShapeVisited fuel) element (depth + 1) values)
            (checks ((∀ part ∈ belowItems (depth + 1) values, p.limits.Allows part) ∧
              ∀ value ∈ values, p.Conforms value element)
                (belowItems (depth + 1) values).length) := by
        rw [helement] at h
        exact denotes_validateShapes p (fun value => ih hle h value (depth + 1)) values
      refine (Denotes.afterItems p fun values _ => Denotes.afterSome (hvalidate values)).congr
        fun _ n log => ?_
      constructor
      · rintro ⟨values, ⟨rfl, hlength, hsame⟩, element, helement, ⟨hparts, hform⟩, rfl, rfl⟩
        exact ⟨⟨⟨hlength, hparts⟩, values, rfl, hsame, element, helement, hform⟩, rfl, rfl⟩
      · rintro ⟨⟨⟨hlength, hparts⟩, values, rfl, hsame, element, helement, hform⟩, rfl, rfl⟩
        exact ⟨values, ⟨rfl, hlength, hsame⟩, element, helement, ⟨hparts, hform⟩, rfl, rfl⟩
    cases shape with
    | opaqueValue | fields _ _ => cases h
    | kind _ =>
      exact Does.checks p (denotes_validateDescendants p value depth)
        ⟨fun h => ⟨h, .kind value _⟩, fun h => h.1⟩ rfl
    | optional resolver =>
      have hinner (value : Json) (hvalue : value ≠ .null) : p.Does
          (do let inner ← orFail (p.schema resolver); p.validateShapeVisited fuel value inner depth)
          (checks (p.limits.Fits depth value ∧ p.Conforms value (.optional resolver))
            (below depth value).length) := by
        have h : (p.schema resolver).bind (p.inheritedClassification room) =
            some (some (.kind kind)) := h
        have hvalidate (inner : SensitiveShape ρ) (hinner : p.schema resolver = some inner) :
            p.Does (p.validateShapeVisited fuel value inner depth)
              (checks (p.limits.Fits depth value ∧ p.Conforms value inner)
                (below depth value).length) := by
          rw [hinner] at h
          exact ih hle h value depth
        refine (Denotes.afterSome hvalidate).congr fun _ n log => ?_
        constructor
        · rintro ⟨inner, hinner, ⟨hfits, hconforms⟩, hn⟩
          exact ⟨⟨hfits, .optional hinner hconforms⟩, hn⟩
        · rintro ⟨⟨hfits, hconforms⟩, hn⟩
          cases hconforms with
          | null => exact (hvalue rfl).elim
          | optional hinner hconforms => exact ⟨_, hinner, ⟨hfits, hconforms⟩, hn⟩
      cases value with
      | null =>
        exact Does.checks p (denotes_none p)
          ⟨fun _ => ⟨⟨trivial, nofun⟩, .null resolver⟩, fun _ => trivial⟩ rfl
      | bool _ | number _ | string _ | array _ | object _ => exact hinner _ nofun
    | sequence resolver =>
      refine Does.checks p (hsequence resolver none h) (and_congr_right fun _ => ?_) rfl
      constructor
      · rintro ⟨values, rfl, -, element, helement, hform⟩
        exact .sequence helement hform
      · rintro ⟨⟩
        exact ⟨_, rfl, rfl, _, ‹_›, ‹_›⟩
    | fixedSequence resolver length =>
      refine Does.checks p (hsequence resolver (some length) h) (and_congr_right fun _ => ?_) rfl
      constructor
      · rintro ⟨values, rfl, hsame, element, helement, hform⟩
        exact .fixedSequence helement (of_decide_eq_true hsame) hform
      · rintro ⟨⟩
        exact ⟨_, rfl, decide_eq_true ‹_›, _, ‹_›, ‹_›⟩

end Projector

end Fusen.Projection
