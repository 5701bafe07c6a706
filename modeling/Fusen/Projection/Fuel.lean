import Fusen.Projection.Project

/-!
# Projections end

A traversal goes down a value at most `max_depth` levels, and between two levels along
optional shapes only as far as the look-ahead has gone.  So `projectionFuel` suffices for
every value, shape and schema (`settles_projectVisited`), recursive ones included.
-/

namespace Fusen.Projection.Projector

open Lib Metered

variable {ρ : Type} (p : Projector ρ)

/-! ## Steps without recursion -/

theorem visit_ok {depth : Nat} {st st' : Meter Decision} {u : Unit} :
    p.visit depth st = .ok (u, st') ↔ depth ≤ p.limits.maxDepth ∧
      st.visited + 1 < Usize.size ∧ st.visited + 1 ≤ p.limits.maxNodes ∧
        st' = { st with visited := st.visited + 1 } := by
  unfold visit
  simp only [bind_ok, require_ok, orFail_ok, Usize.checkedAdd_eq_some_iff]
  constructor
  · rintro ⟨_, _, ⟨hdepth, rfl⟩, _, _, hget, _, _, ⟨⟨hlt, rfl⟩, rfl⟩, _, _, hset, hnodes, rfl⟩
    cases hset
    cases hget
    exact ⟨hdepth, hlt, hnodes, rfl⟩
  · rintro ⟨hdepth, hlt, hnodes, rfl⟩
    exact ⟨(), st, ⟨hdepth, rfl⟩, st, st, rfl, _, st, ⟨⟨hlt, rfl⟩, rfl⟩, (), _, rfl, hnodes, rfl⟩

/-- What follows a visit need only settle at a depth there is. -/
theorem settles_visit (depth : Nat) : Settles (p.visit depth) (p.visit depth) := by
  unfold visit
  refine (settles_require _).bind fun _ _ _ _ => Settles.bind ⟨rfl, fun _ => nofun⟩ fun _ _ _ _ => ?_
  refine (settles_orFail _).bind fun _ _ _ _ => Settles.bind ⟨rfl, fun _ => nofun⟩ fun _ _ _ _ => ?_
  exact settles_require _

theorem Settles.afterVisit {α : Type} {depth : Nat} {x x' : Projecting α}
    (h : depth ≤ p.limits.maxDepth → Settles x x') :
    Settles (do p.visit depth; x) (do p.visit depth; x') :=
  (settles_visit p depth).bind fun _ _ _ hvisit => h ((visit_ok p).mp hvisit).1

mutual

theorem settles_validateDescendants (value : Json) (depth : Nat) :
    Settles (p.validateDescendants value depth) (p.validateDescendants value depth) := by
  cases value with
  | null | bool _ | number _ => exact settles_pure ()
  | string value => exact settles_require _
  | array values => exact (settles_require _).bind fun _ _ _ _ => settles_validateItems values (depth + 1)
  | object values => exact settles_validateMembers values (depth + 1)

theorem settles_validateItems (values : List Json) (depth : Nat) :
    Settles (p.validateItems values depth) (p.validateItems values depth) := by
  cases values with
  | nil => exact settles_pure ()
  | cons value values =>
    exact Settles.afterVisit p fun _ => (settles_validateDescendants value depth).bind
      fun _ _ _ _ => settles_validateItems values depth

theorem settles_validateMembers (values : List (Text × Json)) (depth : Nat) :
    Settles (p.validateMembers values depth) (p.validateMembers values depth) := by
  cases values with
  | nil => exact settles_pure ()
  | cons value values =>
    obtain ⟨name, value⟩ := value
    exact (settles_require _).bind fun _ _ _ _ => Settles.afterVisit p fun _ =>
      (settles_validateDescendants value depth).bind
        fun _ _ _ _ => settles_validateMembers values depth

end

theorem settles_sequenceItems (value : Json) (requiredLength : Option Nat) :
    Settles (p.sequenceItems value requiredLength) (p.sequenceItems value requiredLength) := by
  cases value with
  | array values => exact (settles_require _).bind fun _ _ _ _ => settles_pure values
  | null | bool _ | number _ | string _ | object _ => exact settles_fail

theorem settles_sanitizeClassified (value : Json) (kind : SensitivityKind) (depth : Nat)
    (path : Text) : Settles (p.sanitizeClassified value kind depth path)
      (p.sanitizeClassified value kind depth path) := by
  unfold sanitizeClassified
  refine Settles.bind ⟨rfl, fun _ => nofun⟩ fun _ _ _ _ => (settles_orFail _).bind fun _ answer _ _ => ?_
  refine Settles.bind ⟨rfl, fun _ => nofun⟩ fun _ _ _ _ => ?_
  cases answer with
  | omitted | redact | reveal => exact settles_pure _
  | replace replacement =>
    exact (Settles.afterVisit p fun _ => settles_validateDescendants p replacement depth).bind
      fun _ _ _ _ => settles_pure _

/-! ## The look-ahead -/

/-- More room changes no answer. -/
theorem inheritedClassification_mono {room room' : Nat} (hle : room ≤ room')
    {shape : SensitiveShape ρ} {c : Option InheritedClassification}
    (h : p.inheritedClassification room shape = some c) :
    p.inheritedClassification room' shape = some c := by
  induction room generalizing shape room' with
  | zero => cases h
  | succ room ih =>
    obtain ⟨room', rfl⟩ : ∃ n, room' = n + 1 := ⟨room' - 1, by omega⟩
    have hle : room ≤ room' := by omega
    cases shape with
    | opaqueValue | kind _ | fields _ _ => exact h
    | optional resolver | sequence resolver | fixedSequence resolver _ =>
      obtain ⟨inner, hinner, hroom⟩ := Option.bind_eq_some_iff.mp h
      exact Option.bind_eq_some_iff.mpr ⟨inner, hinner, ih hle hroom⟩

theorem settles_validateShapes {validate validate' : Json → SensitiveShape ρ → Nat → Projecting Unit}
    {element : SensitiveShape ρ} {depth : Nat}
    (h : ∀ value, Settles (validate value element depth) (validate' value element depth))
    (values : List Json) :
    Settles (p.validateShapes validate element depth values)
      (p.validateShapes validate' element depth values) := by
  induction values with
  | nil => exact settles_pure ()
  | cons value values ih =>
    exact Settles.afterVisit p fun _ => (h value).bind fun _ _ _ _ => ih

/-- The levels looked ahead are all that a validation goes down between two items. -/
theorem settles_validateShapeVisited {fuel room : Nat} (hle : room ≤ fuel)
    {shape : SensitiveShape ρ} {c : Option InheritedClassification}
    (h : p.inheritedClassification room shape = some c) (value : Json) (depth : Nat) :
    Settles (p.validateShapeVisited fuel value shape depth)
      (p.validateShapeVisited (fuel + 1) value shape depth) := by
  induction room generalizing shape value depth fuel with
  | zero => cases h
  | succ room ih =>
    obtain ⟨fuel, rfl⟩ : ∃ n, fuel = n + 1 := ⟨fuel - 1, by omega⟩
    have hle : room ≤ fuel := by omega
    have hsequence (resolver : ρ) (requiredLength : Option Nat)
        (h : (p.schema resolver).bind (p.inheritedClassification room) = some c) :
        Settles (p.validateSequence (p.validateShapeVisited fuel) value resolver requiredLength depth)
          (p.validateSequence (p.validateShapeVisited (fuel + 1)) value resolver requiredLength
            depth) := by
      refine (settles_sequenceItems p value requiredLength).bind fun _ values _ _ => ?_
      refine (settles_orFail _).bind fun _ element _ helement => ?_
      rw [(orFail_ok.mp helement).1] at h
      exact settles_validateShapes p (fun value => ih hle h value (depth + 1)) values
    cases shape with
    | opaqueValue => exact settles_pure ()
    | kind _ => exact settles_validateDescendants p value depth
    | fields _ _ =>
      cases value with
      | object _ => exact settles_pure ()
      | null | bool _ | number _ | string _ | array _ => exact settles_fail
    | optional resolver =>
      have hinner (value : Json) : Settles
          (do let inner ← orFail (p.schema resolver); p.validateShapeVisited fuel value inner depth)
          (do let inner ← orFail (p.schema resolver)
              p.validateShapeVisited (fuel + 1) value inner depth) := by
        refine (settles_orFail _).bind fun _ inner _ hinner => ?_
        have h : (p.schema resolver).bind (p.inheritedClassification room) = some c := h
        rw [(orFail_ok.mp hinner).1] at h
        exact ih hle h value depth
      cases value with
      | null => exact settles_pure ()
      | bool _ | number _ | string _ | array _ | object _ => exact hinner _
    | sequence resolver => exact hsequence resolver none h
    | fixedSequence element length => exact hsequence element (some length) h

/-! ## The traversal -/

section Loops

variable {project project' : Json → SensitiveShape ρ → Nat → Text → Projecting Projected}

theorem settles_projectFields {depth : Nat}
    (h : depth ≤ p.limits.maxDepth → ∀ value shape path,
      Settles (project value shape depth path) (project' value shape depth path))
    (values : List (Text × Json)) (path : Text) (fields : List (SensitiveField ρ))
    (declared : List Text) (projected : List (Text × Json)) :
    Settles (p.projectFields project values depth path fields declared projected)
      (p.projectFields project' values depth path fields declared projected) := by
  induction fields generalizing declared projected with
  | nil => exact settles_pure projected
  | cons field fields ih =>
    unfold projectFields
    refine (settles_require _).bind fun _ _ _ _ => ?_
    cases Assoc.get values field.name with
    | none => exact ih _ _
    | some value =>
      refine (settles_orFail _).bind fun _ shape _ _ => Settles.afterVisit p fun hdepth => ?_
      refine (h hdepth value shape _).bind fun _ answer _ _ => ?_
      cases answer with
      | omitted => exact ih _ _
      | value value => exact ih _ _

theorem settles_projectItems {element : SensitiveShape ρ} {depth : Nat} {path : Text}
    (h : depth ≤ p.limits.maxDepth → ∀ value,
      Settles (project value element depth path) (project' value element depth path))
    (values : List Json) :
    Settles (p.projectItems project element depth path values)
      (p.projectItems project' element depth path values) := by
  induction values with
  | nil => exact settles_pure []
  | cons value values ih =>
    unfold projectItems
    refine Settles.afterVisit p fun hdepth => (h hdepth value).bind fun _ answer _ _ => ?_
    cases answer with
    | omitted => exact ih
    | value value => exact ih.bind fun _ _ _ _ => settles_pure _

theorem settles_projectSequence {fuel depth : Nat} {resolver : ρ}
    (hfuel : ∀ element, p.schema resolver = some element →
      (∃ kind, p.inherited element = some (some (.kind kind))) → p.limits.maxDepth + 1 ≤ fuel)
    (h : depth + 1 ≤ p.limits.maxDepth → ∀ value shape path,
      Settles (project value shape (depth + 1) path) (project' value shape (depth + 1) path))
    (value : Json) (requiredLength : Option Nat) (path : Text) :
    Settles (p.projectSequence project (p.validateShapeVisited fuel) value resolver requiredLength
        depth path)
      (p.projectSequence project' (p.validateShapeVisited (fuel + 1)) value resolver requiredLength
        depth path) := by
  refine (settles_sequenceItems p value requiredLength).bind fun _ values _ _ => ?_
  refine (settles_orFail _).bind fun _ element _ helement => ?_
  refine (settles_orFail _).bind fun _ classification _ hclass => ?_
  obtain ⟨helement, -⟩ := orFail_ok.mp helement
  obtain ⟨hclass, -⟩ := orFail_ok.mp hclass
  match classification with
  | some .opaqueValue => exact settles_pure _
  | some (.kind kind) =>
    have hfuel := hfuel element helement ⟨kind, hclass⟩
    have hvalues := settles_validateShapes p (fun value =>
      settles_validateShapeVisited p hfuel hclass value (depth + 1)) values
    refine hvalues.bind fun _ _ _ _ => ?_
    exact settles_sanitizeClassified p value kind depth path
  | none =>
    refine (settles_projectItems p (fun hdepth value => h hdepth value element path) values).bind
      fun _ projected _ _ => ?_
    split
    · split
      · refine (settles_orFail _).bind fun _ classified _ _ => ?_
        cases classified with
        | false => exact settles_pure _
        | true => exact settles_pure _
      · exact settles_pure _
    · exact settles_pure _

end Loops

/-- Down one level of the value costs the fuel of a look-ahead and two steps more. -/
def Suffices (fuel : Nat) (shape : SensitiveShape ρ) (depth : Nat) : Prop :=
  (p.limits.maxDepth + 4) * (p.limits.maxDepth - depth) + p.limits.maxDepth + 3 ≤ fuel ∨
    ∃ room ≤ p.limits.maxDepth + 2, p.inheritedClassification room shape = some none ∧
      (p.limits.maxDepth + 4) * (p.limits.maxDepth - depth) + room ≤ fuel

variable {p}

theorem Suffices.pos {fuel depth : Nat} {shape : SensitiveShape ρ}
    (h : p.Suffices fuel shape depth) : ∃ n, fuel = n + 1 := by
  refine ⟨fuel - 1, ?_⟩
  rcases h with h | ⟨room, -, hroom, h⟩
  · omega
  · cases room with
    | zero => cases hroom
    | succ room => omega

theorem Suffices.deeper {fuel depth : Nat} {shape : SensitiveShape ρ}
    (h : p.Suffices (fuel + 1) shape depth) (hdepth : depth + 1 ≤ p.limits.maxDepth)
    (shape' : SensitiveShape ρ) : p.Suffices fuel shape' (depth + 1) := by
  have hlevel : (p.limits.maxDepth + 4) * (p.limits.maxDepth - depth) =
      (p.limits.maxDepth + 4) * (p.limits.maxDepth - (depth + 1)) + (p.limits.maxDepth + 4) := by
    rw [← Nat.mul_succ]
    congr 1
    omega
  left
  rcases h with h | ⟨room, -, hroom, h⟩
  · omega
  · cases room with
    | zero => cases hroom
    | succ room => omega

/-- Along an optional or a sequence a look-ahead decides which fuel is needed. -/
theorem Suffices.inside {fuel depth : Nat} {shape inner : SensitiveShape ρ} {resolver : ρ}
    (h : p.Suffices (fuel + 1) shape depth) (hinner : p.schema resolver = some inner)
    (hshape : ∀ room, p.inheritedClassification (room + 1) shape =
      (p.schema resolver).bind (p.inheritedClassification room)) :
    (p.inherited inner = some none → p.Suffices fuel inner depth) ∧
      ((∃ kind, p.inherited inner = some (some (.kind kind))) → p.limits.maxDepth + 2 ≤ fuel) := by
  rcases h with h | ⟨room, hle, hroom, h⟩
  · exact ⟨fun hnone => .inr ⟨_, by omega, hnone, by omega⟩, fun _ => by omega⟩
  · cases room with
    | zero => cases hroom
    | succ room =>
      rw [hshape, hinner] at hroom
      have hroom : p.inheritedClassification room inner = some none := hroom
      refine ⟨fun _ => .inr ⟨room, by omega, hroom, by omega⟩, fun ⟨kind, hkind⟩ => ?_⟩
      have hmono := inheritedClassification_mono p (by omega : room ≤ p.limits.maxDepth + 1) hroom
      exact nomatch hmono.symm.trans hkind

variable (p)

theorem settles_projectVisited {fuel depth : Nat} {shape : SensitiveShape ρ}
    (hdepth : depth ≤ p.limits.maxDepth) (h : p.Suffices fuel shape depth) (value : Json)
    (path : Text) :
    Settles (p.projectVisited fuel value shape depth path)
      (p.projectVisited (fuel + 1) value shape depth path) := by
  induction fuel generalizing value shape depth path with
  | zero => exact nomatch h.pos.choose_spec
  | succ fuel ih =>
    have hdeeper (hdepth : depth + 1 ≤ p.limits.maxDepth) (value : Json) (shape' : SensitiveShape ρ)
        (path : Text) := ih hdepth (h.deeper hdepth shape') value path
    cases shape with
    | opaqueValue => exact settles_pure _
    | kind kind =>
      exact (settles_validateDescendants p value depth).bind fun _ _ _ _ =>
        settles_sanitizeClassified p value kind depth path
    | fields serialize deserialize =>
      cases value with
      | object values =>
        refine (settles_projectFields p hdeeper values path _ [] []).bind fun _ projected _ _ => ?_
        split <;> exact settles_pure _
      | null | bool _ | number _ | string _ | array _ => exact settles_fail
    | optional resolver =>
      refine (settles_orFail _).bind fun _ inner _ hinner => ?_
      refine (settles_orFail _).bind fun _ classification _ hclass => ?_
      obtain ⟨hinner, -⟩ := orFail_ok.mp hinner
      obtain ⟨hclass, -⟩ := orFail_ok.mp hclass
      obtain ⟨hnone, hkind⟩ := h.inside hinner fun _ => rfl
      match classification with
      | some .opaqueValue => exact settles_pure _
      | some (.kind kind) =>
        have hroom : p.inheritedClassification (p.limits.maxDepth + 2) (.optional resolver) =
            some (some (.kind kind)) := Option.bind_eq_some_iff.mpr ⟨inner, hinner, hclass⟩
        exact (settles_validateShapeVisited p (hkind ⟨kind, hclass⟩) hroom value depth).bind
          fun _ _ _ _ => settles_sanitizeClassified p value kind depth path
      | none =>
        have hvalue := ih hdepth (hnone hclass)
        cases value with
        | null => exact settles_pure _
        | bool _ | number _ | string _ | array _ | object _ => exact hvalue _ path
    | sequence resolver =>
      refine settles_projectSequence p (fun element helement hkind => ?_) hdeeper value none path
      have := (h.inside helement fun _ => rfl).2 hkind
      omega
    | fixedSequence resolver length =>
      refine settles_projectSequence p (fun element helement hkind => ?_) hdeeper value (some length)
        path
      have := (h.inside helement fun _ => rfl).2 hkind
      omega

/-! ## Enough fuel -/

theorem suffices_projectionFuel {fuel : Nat} (h : p.projectionFuel ≤ fuel)
    (shape : SensitiveShape ρ) : p.Suffices fuel shape 0 := by
  have hlevels : (p.limits.maxDepth + 4) * (p.limits.maxDepth - 0) + 2 * (p.limits.maxDepth + 4) =
      p.projectionFuel := by
    unfold projectionFuel
    rw [Nat.sub_zero, ← Nat.mul_comm p.limits.maxDepth, ← Nat.add_mul]
  left
  omega

/-- **The traversal of a response ends**, whatever the resolvers do. -/
theorem settles_project {fuel : Nat} (h : p.projectionFuel ≤ fuel) (value : Json)
    (shape : SensitiveShape ρ) :
    Settles (p.project p.projectionFuel value shape 0 []) (p.project fuel value shape 0 []) := by
  have hstep (fuel : Nat) (hle : p.projectionFuel ≤ fuel) :
      Settles (p.project fuel value shape 0 []) (p.project (fuel + 1) value shape 0 []) :=
    Settles.afterVisit p fun hdepth =>
      settles_projectVisited p hdepth (suffices_projectionFuel p hle shape) value []
  induction fuel, h using Nat.le_induction with
  | base => exact ⟨rfl, (hstep _ le_rfl).fueled⟩
  | succ fuel hle ih => exact ih.trans (hstep fuel hle)

/-- **The traversal of a request ends.** -/
theorem settles_projectArguments {fuel : Nat} (h : p.projectionFuel ≤ fuel)
    (arguments : List (Text × Json)) (declared : List (SensitiveField ρ)) :
    Settles (p.projectArguments p.projectionFuel arguments declared)
      (p.projectArguments fuel arguments declared) := by
  have hstep (fuel : Nat) (hle : p.projectionFuel ≤ fuel) :
      Settles (p.projectArguments fuel arguments declared)
        (p.projectArguments (fuel + 1) arguments declared) := by
    refine (settles_projectFields p (fun hdepth value shape path => ?_) arguments [] declared [] []).bind
      fun _ projected _ _ => ?_
    · exact settles_projectVisited p hdepth (suffices_projectionFuel p hle shape) value path
    · split <;> exact settles_pure _
  induction fuel, h using Nat.le_induction with
  | base => exact ⟨rfl, (hstep _ le_rfl).fueled⟩
  | succ fuel hle ih => exact ih.trans (hstep fuel hle)

end Fusen.Projection.Projector
