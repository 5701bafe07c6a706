import Fusen.Projection.Semantics
import Mathlib.Data.List.Zip

/-!
# Confidentiality of projections

`Agrees` relates two values that differ only where a projection must not show it: in
members that no field declares, at positions that are opaque, and at positions of kinds
that are hidden.  Which positions these are is said by the shape alone (`Carries`).
Agreeing values evaluate to the same view (`Agrees.evaluates`), and what a view shows
stands where the shape has a kind that the sanitizer let through (`Along`).
-/

namespace Fusen.Projection

open Lib Metered

variable {ρ : Type}

/-- The resolver of the items, of a shape that is a sequence. -/
def SensitiveShape.items : SensitiveShape ρ → Option ρ
  | .sequence resolver | .fixedSequence resolver _ => some resolver
  | .opaqueValue | .kind _ | .fields _ _ | .optional _ => none

/-- What the optionals and sequences around a position come to: the classification they have
in common with it, or none, for an object. -/
inductive SensitiveShape.Carries (schema : Schema ρ) :
    SensitiveShape ρ → Option InheritedClassification → Prop
  | opaqueValue : Carries schema .opaqueValue (some .opaqueValue)
  | kind (kind : SensitivityKind) : Carries schema (.kind kind) (some (.kind kind))
  | fields (serialize deserialize : List (SensitiveField ρ)) :
      Carries schema (.fields serialize deserialize) none
  | optional {resolver : ρ} {inner : SensitiveShape ρ} {c : Option InheritedClassification}
      (resolved : schema resolver = some inner) (carries : Carries schema inner c) :
      Carries schema (.optional resolver) c
  | items {shape element : SensitiveShape ρ} {resolver : ρ} {c : Option InheritedClassification}
      (items : shape.items = some resolver) (resolved : schema resolver = some element)
      (carries : Carries schema element c) : Carries schema shape c

/-- The sanitizer gives every value of the kind one answer, which does not show it. -/
def Hides (answer : SanitizationContext → Option Sanitization) (kind : SensitivityKind) : Prop :=
  (∀ context, context.kind = kind → answer context = some .omitted) ∨
    ∀ context, context.kind = kind → answer context = some .redact

namespace Projector

variable (p : Projector ρ)

/-- The kind of a position, its own or that of the sequences and optionals around it. -/
def Classifies (shape : SensitiveShape ρ) (kind : SensitivityKind) : Prop :=
  shape.Carries p.schema (some (.kind kind))

/-- What the look-ahead finds within its depth is there. -/
theorem carries_of_inherited {room : Nat} {shape : SensitiveShape ρ}
    {c : Option InheritedClassification} (h : p.inheritedClassification room shape = some c) :
    shape.Carries p.schema c := by
  induction room generalizing shape with
  | zero => cases h
  | succ room ih =>
    cases shape with
    | opaqueValue =>
      cases h
      exact .opaqueValue
    | kind kind =>
      cases h
      exact .kind kind
    | fields serialize deserialize =>
      cases h
      exact .fields serialize deserialize
    | optional resolver =>
      obtain ⟨inner, resolved, h⟩ := Option.bind_eq_some_iff.mp h
      exact .optional resolved (ih h)
    | sequence resolver | fixedSequence resolver _ =>
      obtain ⟨element, resolved, h⟩ := Option.bind_eq_some_iff.mp h
      exact .items rfl resolved (ih h)

/-- The look-ahead finds nothing else. -/
theorem inherited_eq_of_carries {room : Nat} {shape : SensitiveShape ρ}
    {c c' : Option InheritedClassification} (hcarries : shape.Carries p.schema c)
    (h : p.inheritedClassification room shape = some c') : c' = c := by
  induction hcarries generalizing room with
  | opaqueValue | kind | fields =>
    cases room with
    | zero => cases h
    | succ room =>
      cases h
      rfl
  | optional resolved _ ih =>
    cases room with
    | zero => cases h
    | succ room =>
      obtain ⟨inner, resolved', h⟩ := Option.bind_eq_some_iff.mp h
      cases resolved.symm.trans resolved'
      exact ih h
  | @items shape _ _ _ items resolved _ ih =>
    cases room with
    | zero => cases h
    | succ room =>
      cases shape with
      | opaqueValue | kind | fields | optional => cases items
      | sequence resolver | fixedSequence resolver _ =>
        cases items
        obtain ⟨element, resolved', h⟩ := Option.bind_eq_some_iff.mp h
        cases resolved.symm.trans resolved'
        exact ih h

/-- The values differ only in what a projection may not show. -/
inductive Agrees (hidden : SensitivityKind → Prop) : Json → Json → SensitiveShape ρ → Nat → Prop
  | refl (value : Json) (shape : SensitiveShape ρ) (depth : Nat) :
      Agrees hidden value value shape depth
  | opaqueValue (value value' : Json) (depth : Nat) : Agrees hidden value value' .opaqueValue depth
  | opaqueOptional {value value' : Json} {resolver : ρ} {inner : SensitiveShape ρ} {depth : Nat}
      (resolved : p.schema resolver = some inner)
      (carries : inner.Carries p.schema (some .opaqueValue)) :
      Agrees hidden value value' (.optional resolver) depth
  | opaqueItems {values values' : List Json} {shape element : SensitiveShape ρ} {resolver : ρ}
      {depth : Nat} (items : shape.items = some resolver)
      (resolved : p.schema resolver = some element)
      (carries : element.Carries p.schema (some .opaqueValue))
      (length : values.length = values'.length) :
      Agrees hidden (.array values) (.array values') shape depth
  | hidden {value value' : Json} {shape : SensitiveShape ρ} {kind : SensitivityKind} {depth : Nat}
      (classifies : p.Classifies shape kind) (hides : hidden kind)
      (fits : p.limits.Fits depth value) (fits' : p.limits.Fits depth value')
      (conforms : p.Conforms value shape ↔ p.Conforms value' shape) :
      Agrees hidden value value' shape depth
  /-- The optionals and sequences do not come to an end. -/
  | endless {value value' : Json} {shape : SensitiveShape ρ} {depth : Nat}
      (endless : ∀ c, ¬ shape.Carries p.schema c) : Agrees hidden value value' shape depth
  | fields {values values' : List (Text × Json)} {serialize deserialize : List (SensitiveField ρ)}
      {depth : Nat}
      (present : ∀ field ∈ p.direction.fields serialize deserialize,
        (Assoc.get values field.name).isSome = (Assoc.get values' field.name).isSome)
      (agree : ∀ field ∈ p.direction.fields serialize deserialize, ∀ value value' shape,
        Assoc.get values field.name = some value → Assoc.get values' field.name = some value' →
          p.schema field.resolver = some shape → Agrees hidden value value' shape (depth + 1)) :
      Agrees hidden (.object values) (.object values') (.fields serialize deserialize) depth
  | optional {value value' : Json} {resolver : ρ} {inner : SensitiveShape ρ} {depth : Nat}
      (resolved : p.schema resolver = some inner) (carries : inner.Carries p.schema none)
      (present : value ≠ .null) (present' : value' ≠ .null)
      (agree : Agrees hidden value value' inner depth) :
      Agrees hidden value value' (.optional resolver) depth
  | items {values values' : List Json} {shape element : SensitiveShape ρ} {resolver : ρ}
      {depth : Nat} (items : shape.items = some resolver)
      (resolved : p.schema resolver = some element) (carries : element.Carries p.schema none)
      (length : values.length = values'.length)
      (agree : ∀ e ∈ values.zip values', Agrees hidden e.1 e.2 element (depth + 1)) :
      Agrees hidden (.array values) (.array values') shape depth

/-! ## Agreeing values evaluate alike -/

section

variable (answer : SanitizationContext → Option Sanitization) (hidden : SensitivityKind → Prop)

def Answered (log : List Decision) : Prop :=
  ∀ decision ∈ log, answer decision.context = some decision.answer

/-- The same results, and in as many steps if nothing is hidden. -/
def Transfers {α : Type} (effects effects' : Effects Decision α) : Prop :=
  ∀ r n log, effects r n log → Answered answer log → ∃ n' log', effects' r n' log' ∧
    Answered answer log' ∧ ((∀ kind, ¬ hidden kind) → n' = n)

variable {p answer hidden}

theorem answered_append {log log' : List Decision} :
    Answered answer (log ++ log') ↔ Answered answer log ∧ Answered answer log' :=
  List.forall_mem_append

theorem Transfers.refl {α : Type} (effects : Effects Decision α) :
    Transfers answer hidden effects effects :=
  fun _ n log heffects hanswered => ⟨n, log, heffects, hanswered, fun _ => rfl⟩

theorem Transfers.of_imp {α : Type} {effects effects' : Effects Decision α}
    (h : ∀ r n log, effects r n log → effects' r n log) : Transfers answer hidden effects effects' :=
  fun r n log heffects hanswered => ⟨n, log, h r n log heffects, hanswered, fun _ => rfl⟩

theorem Transfers.of_not {α : Type} {effects effects' : Effects Decision α}
    (h : ∀ r n log, ¬ effects r n log) : Transfers answer hidden effects effects' :=
  fun r n log heffects => (h r n log heffects).elim

/-- A hidden value is replaced by one answer, whatever it is. -/
theorem Classified.transfers (hhides : ∀ kind, hidden kind → Hides answer kind)
    {value value' : Json} {shape : SensitiveShape ρ} {kind : SensitivityKind} {depth : Nat}
    {path : Text} (hkind : hidden kind) (hfits : p.limits.Fits depth value')
    (hconforms : p.Conforms value shape ↔ p.Conforms value' shape) :
    Transfers answer hidden (p.Classified value shape kind depth path)
      (p.Classified value' shape kind depth path) := by
  rintro r n log ⟨⟨-, hvalue⟩, m, rfl, ⟨_, depth, a⟩, rfl, rfl, -, rfl, rfl, rfl⟩ hanswered
  have hanswer : answer ⟨p.target, path, kind, value⟩ = some a :=
    hanswered _ (List.mem_singleton.mpr rfl)
  obtain ⟨hanswer', hshown⟩ : answer ⟨p.target, path, kind, value'⟩ = some a ∧
      (a = .omitted ∨ a = .redact) := by
    rcases hhides kind hkind with hall | hall
    · have ha := Option.some.inj ((hall _ rfl).symm.trans hanswer)
      exact ⟨(hall _ rfl).trans (congrArg some ha), .inl ha.symm⟩
    · have ha := Option.some.inj ((hall _ rfl).symm.trans hanswer)
      exact ⟨(hall _ rfl).trans (congrArg some ha), .inr ha.symm⟩
  obtain ⟨hreplaced, houtcome⟩ : (∀ context depth, (⟨context, depth, a⟩ : Decision).replaced = []) ∧
      ∀ context context' depth,
        (⟨context, depth, a⟩ : Decision).outcome = (⟨context', depth, a⟩ : Decision).outcome := by
    rcases hshown with rfl | rfl
    · exact ⟨fun _ _ => rfl, fun _ _ _ => rfl⟩
    · exact ⟨fun _ _ => rfl, fun _ _ _ => rfl⟩
  let decision' : Decision := ⟨⟨p.target, path, kind, value'⟩, depth, a⟩
  refine ⟨(below depth value').length, [decision'], ⟨⟨hfits, hconforms.mp hvalue⟩, 0, rfl, decision',
    rfl, rfl, ?_, houtcome _ _ _, ?_, rfl⟩, ?_, fun hnone => (hnone kind hkind).elim⟩
  · rw [hreplaced]
    exact nofun
  · rw [hreplaced]
    rfl
  · intro entry hentry
    rw [List.mem_singleton.mp hentry]
    exact hanswer'

/-! ## Objects and arrays -/

theorem Fields.transfers
    {project : Json → SensitiveShape ρ → Text → Effects Decision Projected}
    {values values' : List (Text × Json)} {depth : Nat} {path : Text}
    {fields : List (SensitiveField ρ)}
    (hpresent : ∀ field ∈ fields,
      (Assoc.get values field.name).isSome = (Assoc.get values' field.name).isSome)
    (hproject : ∀ field ∈ fields, ∀ value value' shape, Assoc.get values field.name = some value →
      Assoc.get values' field.name = some value' → p.schema field.resolver = some shape →
        ∀ path, Transfers answer hidden (project value shape path) (project value' shape path)) :
    Transfers answer hidden (p.Fields project values depth path fields)
      (p.Fields project values' depth path fields) := by
  intro entries n log hentries hanswered
  induction hentries with
  | nil => exact ⟨0, [], .nil, hanswered, fun _ => rfl⟩
  | @absent field fields _ _ _ missing _ ih =>
    obtain ⟨hfirst, hpresent⟩ := List.forall_mem_cons.mp hpresent
    obtain ⟨n', log', rest, hanswered', hsteps⟩ :=
      ih hpresent (fun field hfield => hproject field (List.mem_cons_of_mem _ hfield)) hanswered
    have missing' : Assoc.get values' field.name = none := by
      rw [missing] at hfirst
      exact Option.not_isSome_iff_eq_none.mp fun h => Bool.false_ne_true (hfirst.trans h)
    exact ⟨n', log', .absent missing' rest, hanswered', hsteps⟩
  | @present field fields value shape _ _ _ _ _ _ found resolved allowed projected _ ih =>
    obtain ⟨hfirst, hpresent⟩ := List.forall_mem_cons.mp hpresent
    obtain ⟨hanswered₁, hanswered₂⟩ := (answered_append).mp hanswered
    obtain ⟨n₂, log₂, rest, hrest, hsteps₂⟩ :=
      ih hpresent (fun field hfield => hproject field (List.mem_cons_of_mem _ hfield)) hanswered₂
    rw [found] at hfirst
    obtain ⟨value', found'⟩ := Option.isSome_iff_exists.mp hfirst.symm
    obtain ⟨n₁, log₁, projected', hprojected, hsteps₁⟩ :=
      hproject field List.mem_cons_self value value' shape found found' resolved _ _ _ _ projected
        hanswered₁
    refine ⟨_, _, .present found' resolved allowed projected' rest,
      (answered_append).mpr ⟨hprojected, hrest⟩, fun hnone => ?_⟩
    rw [hsteps₁ hnone, hsteps₂ hnone]

theorem Items.transfers {project : Json → Effects Decision Projected} {depth : Nat}
    {values values' : List Json} (hlength : values.length = values'.length)
    (hproject : ∀ e ∈ values.zip values',
      Transfers answer hidden (project e.1) (project e.2)) :
    Transfers answer hidden (p.Items project depth values) (p.Items project depth values') := by
  intro items n log hitems hanswered
  induction hitems generalizing values' with
  | nil =>
    obtain rfl := List.length_eq_zero_iff.mp hlength.symm
    exact ⟨0, [], .nil, hanswered, fun _ => rfl⟩
  | cons allowed projected _ ih =>
    cases values' with
    | nil => exact nomatch hlength
    | cons value' values' =>
      rw [List.zip_cons_cons] at hproject
      obtain ⟨hfirst, hproject⟩ := List.forall_mem_cons.mp hproject
      obtain ⟨hanswered₁, hanswered₂⟩ := (answered_append).mp hanswered
      obtain ⟨n₁, log₁, projected', hprojected, hsteps₁⟩ := hfirst _ _ _ projected hanswered₁
      obtain ⟨n₂, log₂, rest, hrest, hsteps₂⟩ := ih (Nat.succ.inj hlength) hproject hanswered₂
      refine ⟨_, _, .cons allowed projected' rest, (answered_append).mpr ⟨hprojected, hrest⟩,
        fun hnone => ?_⟩
      rw [hsteps₁ hnone, hsteps₂ hnone]

theorem gathers_of_length {element : SensitiveShape ρ} {values values' items : List Json}
    {r : Projected} (hlength : values.length = values'.length)
    (h : p.Gathers element values items r) : p.Gathers element values' items r := by
  have hempty : values = [] ↔ values' = [] := by
    rw [← List.length_eq_zero_iff, hlength, List.length_eq_zero_iff]
  unfold Gathers at h ⊢
  by_cases hitems : items = []
  · rw [if_pos hitems] at h ⊢
    by_cases hvalues : values = []
    · rw [if_pos hvalues] at h
      rw [if_pos (hempty.mp hvalues)]
      exact h
    · rw [if_neg hvalues] at h
      rw [if_neg fun h => hvalues (hempty.mpr h)]
      exact h
  · rw [if_neg hitems] at h ⊢
    exact h

/-- The length that a sequence requires. -/
theorem lists_of_length {values values' : List Json} {requiredLength : Option Nat}
    (hlength : values.length = values'.length)
    (h : p.Lists (.array values) requiredLength values) :
    p.Lists (.array values') requiredLength values' := by
  obtain ⟨-, hle, hrequired⟩ := h
  exact ⟨rfl, hlength ▸ hle, by rwa [hlength] at hrequired⟩

theorem Sequence.transfers
    {project : Json → SensitiveShape ρ → Nat → Text → Effects Decision Projected}
    {values values' : List Json} {shape element : SensitiveShape ρ} {resolver : ρ}
    {requiredLength : Option Nat} {depth : Nat} {path : Text}
    (hresolved : p.schema resolver = some element) (hlength : values.length = values'.length)
    (hcarries : element.Carries p.schema (some .opaqueValue) ∨
      element.Carries p.schema none ∧ ∀ e ∈ values.zip values',
        Transfers answer hidden (project e.1 element (depth + 1) path)
          (project e.2 element (depth + 1) path)) :
    Transfers answer hidden
      (p.Sequence project (.array values) shape resolver requiredLength depth path)
      (p.Sequence project (.array values') shape resolver requiredLength depth path) := by
  rintro r n log ⟨_, hlists, _, hresolved', _, hclass, hsequence⟩ hanswered
  cases hlists.1
  cases hresolved.symm.trans hresolved'
  have hlists' := lists_of_length hlength hlists
  rcases hcarries with hunseen | ⟨hnone, hproject⟩
  · cases p.inherited_eq_of_carries hunseen hclass
    exact ⟨n, log, ⟨values', hlists', element, hresolved, _, hclass, hsequence⟩, hanswered,
      fun _ => rfl⟩
  · cases p.inherited_eq_of_carries hnone hclass
    obtain ⟨items, hitems, hr⟩ := hsequence
    have htransfers : Transfers answer hidden
        (p.Items (fun value => project value element (depth + 1) path) (depth + 1) values)
        (p.Items (fun value => project value element (depth + 1) path) (depth + 1) values') :=
      Items.transfers hlength hproject
    obtain ⟨n', log', hitems', hanswered', hsteps⟩ := htransfers items n log hitems hanswered
    exact ⟨n', log', ⟨values', hlists', element, hresolved, _, hclass, items, hitems',
      gathers_of_length hlength hr⟩, hanswered', hsteps⟩

theorem Sequence.transfers_hidden
    {project : Json → SensitiveShape ρ → Nat → Text → Effects Decision Projected}
    (hhides : ∀ kind, hidden kind → Hides answer kind) {value value' : Json}
    {shape element : SensitiveShape ρ} {resolver : ρ} {requiredLength : Option Nat}
    {kind : SensitivityKind} {depth : Nat} {path : Text}
    (hform : p.Conforms value' shape → ∃ values', value' = .array values' ∧
      requiredLength.all fun length => values'.length = length)
    (hresolved : p.schema resolver = some element)
    (hcarries : element.Carries p.schema (some (.kind kind))) (hkind : hidden kind)
    (hfits : p.limits.Fits depth value')
    (hconforms : p.Conforms value shape ↔ p.Conforms value' shape) :
    Transfers answer hidden (p.Sequence project value shape resolver requiredLength depth path)
      (p.Sequence project value' shape resolver requiredLength depth path) := by
  rintro r n log ⟨_, -, _, hresolved', _, hclass, hclassified⟩ hanswered
  cases hresolved.symm.trans hresolved'
  cases p.inherited_eq_of_carries hcarries hclass
  obtain ⟨values', rfl, hrequired⟩ := hform (hconforms.mp hclassified.1.2)
  obtain ⟨n', log', hclassified', hanswered', hsteps⟩ :=
    Classified.transfers hhides hkind hfits hconforms r n log hclassified hanswered
  exact ⟨n', log', ⟨values', ⟨rfl, hfits.1, hrequired⟩, element, hresolved, _, hclass, hclassified'⟩,
    hanswered', hsteps⟩

theorem Sequence.not_of_endless
    {project : Json → SensitiveShape ρ → Nat → Text → Effects Decision Projected} {value : Json}
    {shape : SensitiveShape ρ} {resolver : ρ} {requiredLength : Option Nat} {depth : Nat}
    {path : Text} (hitems : shape.items = some resolver) (h : ∀ c, ¬ shape.Carries p.schema c)
    (r : Projected) (n : Nat) (log : List Decision) :
    ¬ p.Sequence project value shape resolver requiredLength depth path r n log := by
  rintro ⟨_, -, element, hresolved, _, hclass, -⟩
  exact h _ (.items hitems hresolved (p.carries_of_inherited hclass))

/-- **Agreeing values evaluate to the same view.** -/
theorem Agrees.evaluates (hhides : ∀ kind, hidden kind → Hides answer kind) {fuel : Nat}
    {value value' : Json} {shape : SensitiveShape ρ} {depth : Nat}
    (h : p.Agrees hidden value value' shape depth) (path : Text) :
    Transfers answer hidden (p.Evaluates fuel value shape depth path)
      (p.Evaluates fuel value' shape depth path) := by
  induction fuel generalizing value value' shape depth path with
  | zero => exact Transfers.refl _
  | succ fuel ih =>
    cases h with
    | refl => exact Transfers.refl _
    | opaqueValue => exact Transfers.refl _
    | @opaqueOptional _ _ resolver inner _ resolved carries =>
      refine Transfers.of_imp fun r n log ⟨_, hresolved, _, hclass, hsilent⟩ => ?_
      cases resolved.symm.trans hresolved
      cases p.inherited_eq_of_carries carries hclass
      exact ⟨inner, resolved, _, hclass, hsilent⟩
    | opaqueItems items resolved carries length =>
      cases shape with
      | opaqueValue | kind _ | fields _ _ | optional _ => cases items
      | sequence resolver =>
        cases items
        exact Sequence.transfers resolved length (.inl carries)
      | fixedSequence resolver _ =>
        cases items
        exact Sequence.transfers resolved length (.inl carries)
    | @hidden _ _ _ kind _ classifies hides fits fits' conforms =>
      cases classifies with
      | kind => exact Classified.transfers hhides hides fits' conforms
      | @optional resolver inner _ resolved carries =>
        rintro r n log ⟨_, hresolved, _, hclass, hclassified⟩ hanswered
        cases resolved.symm.trans hresolved
        cases p.inherited_eq_of_carries carries hclass
        obtain ⟨n', log', hclassified', hanswered', hsteps⟩ :=
          Classified.transfers hhides hides fits' conforms r n log hclassified hanswered
        exact ⟨n', log', ⟨inner, resolved, _, hclass, hclassified'⟩, hanswered', hsteps⟩
      | items items resolved carries =>
        cases shape with
        | opaqueValue | kind _ | fields _ _ | optional _ => cases items
        | sequence resolver =>
          cases items
          refine Sequence.transfers_hidden hhides (fun hform => ?_) resolved carries hides fits'
            conforms
          cases hform
          exact ⟨_, rfl, rfl⟩
        | fixedSequence resolver length =>
          cases items
          refine Sequence.transfers_hidden hhides (fun hform => ?_) resolved carries hides fits'
            conforms
          cases hform
          exact ⟨_, rfl, decide_eq_true ‹_›⟩
    | endless endless =>
      cases shape with
      | opaqueValue => exact (endless _ .opaqueValue).elim
      | kind kind => exact (endless _ (.kind kind)).elim
      | fields serialize deserialize => exact (endless _ (.fields serialize deserialize)).elim
      | optional resolver =>
        refine Transfers.of_not fun r n log ⟨inner, hresolved, _, hclass, _⟩ => ?_
        exact endless _ (.optional hresolved (p.carries_of_inherited hclass))
      | sequence resolver | fixedSequence resolver _ =>
        exact Transfers.of_not fun r n log => Sequence.not_of_endless rfl endless r n log
    | @fields values values' serialize deserialize _ present agree =>
      rintro r n log ⟨_, hvalues, hdistinct, entries, hentries, rfl⟩ hanswered
      cases hvalues
      obtain ⟨n', log', hentries', hanswered', hsteps⟩ := Fields.transfers present
        (fun field hfield value value' shape hvalue hvalue' hresolved path =>
          ih (agree field hfield value value' shape hvalue hvalue' hresolved) path)
        entries n log hentries hanswered
      exact ⟨n', log', ⟨values', rfl, hdistinct, entries, hentries', rfl⟩, hanswered', hsteps⟩
    | @optional _ _ resolver inner _ resolved carries present present' agree =>
      rintro r n log ⟨_, hresolved, _, hclass, hevaluates⟩ hanswered
      cases resolved.symm.trans hresolved
      cases p.inherited_eq_of_carries carries hclass
      rcases hevaluates with ⟨hnull, -⟩ | ⟨-, hevaluates⟩
      · exact (present hnull).elim
      · obtain ⟨n', log', hevaluates', hanswered', hsteps⟩ :=
          ih agree path r n log hevaluates hanswered
        exact ⟨n', log', ⟨inner, resolved, none, hclass, .inr ⟨present', hevaluates'⟩⟩, hanswered',
          hsteps⟩
    | items items resolved carries length agree =>
      have hproject := fun e he => ih (agree e he) path
      cases shape with
      | opaqueValue | kind _ | fields _ _ | optional _ => cases items
      | sequence resolver =>
        cases items
        exact Sequence.transfers resolved length (.inr ⟨carries, hproject⟩)
      | fixedSequence resolver _ =>
        cases items
        exact Sequence.transfers resolved length (.inr ⟨carries, hproject⟩)

theorem Agrees.symm {value value' : Json} {shape : SensitiveShape ρ} {depth : Nat}
    (h : p.Agrees hidden value value' shape depth) : p.Agrees hidden value' value shape depth := by
  induction h with
  | refl value shape depth => exact .refl value shape depth
  | opaqueValue value value' depth => exact .opaqueValue value' value depth
  | opaqueOptional resolved carries => exact .opaqueOptional resolved carries
  | opaqueItems items resolved carries length =>
    exact .opaqueItems items resolved carries length.symm
  | hidden classifies hides fits fits' conforms =>
    exact .hidden classifies hides fits' fits conforms.symm
  | endless endless => exact .endless endless
  | fields present _ ih =>
    refine .fields (fun field hfield => (present field hfield).symm) ?_
    exact fun field hfield value value' shape hvalue hvalue' hresolved =>
      ih field hfield value' value shape hvalue' hvalue hresolved
  | optional resolved carries present present' _ ih =>
    exact .optional resolved carries present' present ih
  | items items resolved carries length _ ih =>
    refine .items items resolved carries length.symm fun e he => ?_
    rw [← List.zip_swap] at he
    obtain ⟨e', he', rfl⟩ := List.mem_map.mp he
    exact ih e' he'

end

/-! ## Where a view may show something -/

section

variable (answer : SanitizationContext → Option Sanitization)

mutual

/-- The view is put together along the shape, of what the sanitizer answers about values
that stand at positions with a kind. -/
inductive Along : Json → SensitiveShape ρ → Text → Json → Prop
  | decided {value view : Json} {shape : SensitiveShape ρ} {kind : SensitivityKind} {path : Text}
      {decision : Decision} (classifies : p.Classifies shape kind)
      (context : decision.context = ⟨p.target, path, kind, value⟩)
      (answered : answer decision.context = some decision.answer)
      (outcome : decision.outcome = .value view) : Along value shape path view
  | object {values members : List (Text × Json)} {serialize deserialize : List (SensitiveField ρ)}
      {path : Text}
      (each : AlongMembers values (p.direction.fields serialize deserialize) path members) :
      Along (.object values) (.fields serialize deserialize) path (.object members)
  | optional {value view : Json} {resolver : ρ} {inner : SensitiveShape ρ} {path : Text}
      (resolved : p.schema resolver = some inner) (along : Along value inner path view) :
      Along value (.optional resolver) path view
  | array {values items : List Json} {shape element : SensitiveShape ρ} {resolver : ρ} {path : Text}
      (sequence : shape.items = some resolver) (resolved : p.schema resolver = some element)
      (each : AlongItems values element path items) : Along (.array values) shape path (.array items)

/-- Each member of the view comes of a declared field of that name. -/
inductive AlongMembers :
    List (Text × Json) → List (SensitiveField ρ) → Text → List (Text × Json) → Prop
  | nil {values : List (Text × Json)} {fields : List (SensitiveField ρ)} {path : Text} :
      AlongMembers values fields path []
  | cons {values members : List (Text × Json)} {fields : List (SensitiveField ρ)} {path : Text}
      {field : SensitiveField ρ} {value view : Json} {shape : SensitiveShape ρ}
      (declared : field ∈ fields) (found : Assoc.get values field.name = some value)
      (resolved : p.schema field.resolver = some shape)
      (along : Along value shape (pushPathSegment path field.name) view)
      (rest : AlongMembers values fields path members) :
      AlongMembers values fields path ((field.name, view) :: members)

/-- Each item of the view comes of an item of the value. -/
inductive AlongItems : List Json → SensitiveShape ρ → Text → List Json → Prop
  | nil {values : List Json} {element : SensitiveShape ρ} {path : Text} :
      AlongItems values element path []
  | cons {values items : List Json} {element : SensitiveShape ρ} {path : Text} {value view : Json}
      (listed : value ∈ values) (along : Along value element path view)
      (rest : AlongItems values element path items) : AlongItems values element path (view :: items)

end

variable {p answer}

theorem AlongMembers.of_forall {values members : List (Text × Json)}
    {fields : List (SensitiveField ρ)} {path : Text}
    (h : ∀ e ∈ members, ∃ field value shape, field ∈ fields ∧ field.name = e.1 ∧
      Assoc.get values field.name = some value ∧ p.schema field.resolver = some shape ∧
        p.Along answer value shape (pushPathSegment path field.name) e.2) :
    p.AlongMembers answer values fields path members := by
  induction members with
  | nil => exact .nil
  | cons e members ih =>
    obtain ⟨hfirst, hrest⟩ := List.forall_mem_cons.mp h
    obtain ⟨field, value, shape, hfield, hname, hvalue, hresolved, halong⟩ := hfirst
    obtain ⟨name, view⟩ := e
    obtain rfl : field.name = name := hname
    exact .cons hfield hvalue hresolved halong (ih hrest)

theorem AlongItems.of_forall {values items : List Json} {element : SensitiveShape ρ} {path : Text}
    (h : ∀ item ∈ items, ∃ value ∈ values, p.Along answer value element path item) :
    p.AlongItems answer values element path items := by
  induction items with
  | nil => exact .nil
  | cons item items ih =>
    obtain ⟨⟨value, hvalue, halong⟩, hrest⟩ := List.forall_mem_cons.mp h
    exact .cons hvalue halong (ih hrest)

/-- Each entry of the view is the projection of a declared field. -/
theorem Fields.entry {project : Json → SensitiveShape ρ → Text → Effects Decision Projected}
    {values entries : List (Text × Json)} {depth n : Nat} {log : List Decision} {path : Text}
    {fields : List (SensitiveField ρ)} (h : p.Fields project values depth path fields entries n log)
    (hanswered : Answered answer log) {e : Text × Json} (he : e ∈ entries) :
    ∃ field value shape, field ∈ fields ∧ field.name = e.1 ∧
      Assoc.get values field.name = some value ∧ p.schema field.resolver = some shape ∧
        ∃ n log, project value shape (pushPathSegment path field.name) (.value e.2) n log ∧
          Answered answer log := by
  induction h with
  | nil => exact nomatch he
  | absent _ _ ih =>
    obtain ⟨field, value, shape, hfield, h⟩ := ih hanswered he
    exact ⟨field, value, shape, List.mem_cons_of_mem _ hfield, h⟩
  | @present field _ value shape r _ _ _ _ _ found resolved _ projected _ ih =>
    obtain ⟨hanswered₁, hanswered₂⟩ := (answered_append).mp hanswered
    rcases List.mem_append.mp he with he | he
    · obtain ⟨view, hview, rfl⟩ := List.mem_map.mp he
      cases r with
      | omitted => exact nomatch hview
      | value v =>
        obtain rfl := List.mem_singleton.mp hview
        exact ⟨field, value, shape, List.mem_cons_self, rfl, found, resolved, _, _, projected,
          hanswered₁⟩
    · obtain ⟨field, value, shape, hfield, h⟩ := ih hanswered₂ he
      exact ⟨field, value, shape, List.mem_cons_of_mem _ hfield, h⟩

theorem Items.entry {project : Json → Effects Decision Projected} {depth n : Nat}
    {log : List Decision} {values items : List Json} (h : p.Items project depth values items n log)
    (hanswered : Answered answer log) {item : Json} (hitem : item ∈ items) :
    ∃ value ∈ values, ∃ n log, project value (.value item) n log ∧ Answered answer log := by
  induction h with
  | nil => exact nomatch hitem
  | @cons value values r _ _ _ _ _ _ projected _ ih =>
    obtain ⟨hanswered₁, hanswered₂⟩ := (answered_append).mp hanswered
    rcases List.mem_append.mp hitem with hitem | hitem
    · cases r with
      | omitted => exact nomatch hitem
      | value v =>
        obtain rfl := List.mem_singleton.mp hitem
        exact ⟨value, List.mem_cons_self, _, _, projected, hanswered₁⟩
    · obtain ⟨value', hvalue', h⟩ := ih hanswered₂ hitem
      exact ⟨value', List.mem_cons_of_mem _ hvalue', h⟩

theorem Classified.along {value view : Json} {shape : SensitiveShape ρ} {kind : SensitivityKind}
    {depth n : Nat} {path : Text} {log : List Decision} (hclassifies : p.Classifies shape kind)
    (h : p.Classified value shape kind depth path (.value view) n log)
    (hanswered : Answered answer log) : p.Along answer value shape path view := by
  obtain ⟨-, m, -, decision, hcontext, -, -, houtcome, -, rfl⟩ := h
  exact .decided hclassifies hcontext (hanswered decision (List.mem_singleton.mpr rfl)) houtcome.symm

/-- The members of the view are the entries. -/
theorem object_eq_value {entries : List (Text × Json)} {view : Json}
    (h : Projected.value view = Projected.object entries) :
    view = .object (SortedMap.insertAll [] entries) := by
  unfold Projected.object at h
  split at h
  · cases h
  · exact Projected.value.inj h

theorem Sequence.along
    {project : Json → SensitiveShape ρ → Nat → Text → Effects Decision Projected} {value view : Json}
    {shape : SensitiveShape ρ} {resolver : ρ} {requiredLength : Option Nat} {depth n : Nat}
    {path : Text} {log : List Decision}
    (hproject : ∀ value view element n log, project value element (depth + 1) path (.value view) n log →
      Answered answer log → p.Along answer value element path view)
    (hitems : shape.items = some resolver)
    (h : p.Sequence project value shape resolver requiredLength depth path (.value view) n log)
    (hanswered : Answered answer log) : p.Along answer value shape path view := by
  obtain ⟨values, hlists, element, hresolved, classification, hclass, h⟩ := h
  match classification, h with
  | some .opaqueValue, h => cases h.1
  | some (.kind kind), h =>
    exact h.along (.items hitems hresolved (p.carries_of_inherited hclass)) hanswered
  | none, ⟨items, hentries, hgathers⟩ =>
    have hview : view = .array items := by
      unfold Gathers at hgathers
      split at hgathers
      · rename_i hempty
        split at hgathers
        · obtain ⟨classified, -, hr⟩ := hgathers
          cases classified with
          | false => cases hr
          | true => exact hempty ▸ Projected.value.inj hr
        · cases hgathers
      · exact Projected.value.inj hgathers
    rw [hview, hlists.1]
    refine .array hitems hresolved (.of_forall fun item hitem => ?_)
    obtain ⟨value, hvalue, n, log, hitem, hanswered⟩ := hentries.entry hanswered hitem
    exact ⟨value, hvalue, hproject value item element n log hitem hanswered⟩

/-- **What is shown stands at a position with a kind.** -/
theorem Evaluates.along {fuel : Nat} {value view : Json} {shape : SensitiveShape ρ} {depth n : Nat}
    {path : Text} {log : List Decision}
    (h : p.Evaluates fuel value shape depth path (.value view) n log)
    (hanswered : Answered answer log) : p.Along answer value shape path view := by
  induction fuel generalizing value view shape depth path n log with
  | zero => exact h.elim
  | succ fuel ih =>
    cases shape with
    | opaqueValue => cases h.1
    | kind kind => exact Classified.along (.kind kind) h hanswered
    | fields serialize deserialize =>
      obtain ⟨values, rfl, hdistinct, entries, hentries, hview⟩ := h
      rw [object_eq_value hview]
      have hperm := SortedMap.insertAll_perm (hdistinct.sublist hentries.names)
      refine .object (.of_forall fun e he => ?_)
      obtain ⟨field, value, shape, hfield, hname, hvalue, hresolved, _, _, hentry, hanswered⟩ :=
        hentries.entry hanswered (hperm.mem_iff.mp he)
      exact ⟨field, value, shape, hfield, hname, hvalue, hresolved, ih hentry hanswered⟩
    | optional resolver =>
      obtain ⟨inner, hresolved, classification, hclass, h⟩ := h
      match classification, h with
      | some .opaqueValue, h => cases h.1
      | some (.kind kind), h =>
        exact Classified.along (.optional hresolved (p.carries_of_inherited hclass)) h hanswered
      | none, .inl ⟨_, h⟩ => cases h.1
      | none, .inr ⟨_, h⟩ => exact .optional hresolved (ih h hanswered)
    | sequence resolver | fixedSequence resolver _ =>
      exact Sequence.along (fun _ _ _ _ _ h => ih h) rfl h hanswered

end

end Projector

/-! ## Requests and responses -/

/-- Each declared argument is there in both requests or in neither, and agrees. -/
def Projector.AgreeArguments (p : Projector ρ) (hidden : SensitivityKind → Prop)
    (declared : List (SensitiveField ρ)) (arguments arguments' : List (Text × Json)) : Prop :=
  (∀ field ∈ declared,
    (Assoc.get arguments field.name).isSome = (Assoc.get arguments' field.name).isSome) ∧
  ∀ field ∈ declared, ∀ value value' shape, Assoc.get arguments field.name = some value →
    Assoc.get arguments' field.name = some value' → p.schema field.resolver = some shape →
      p.Agrees hidden value value' shape 0

theorem Projector.AgreeArguments.symm {p : Projector ρ} {hidden : SensitivityKind → Prop}
    {declared : List (SensitiveField ρ)} {arguments arguments' : List (Text × Json)}
    (h : p.AgreeArguments hidden declared arguments arguments') :
    p.AgreeArguments hidden declared arguments' arguments :=
  ⟨fun field hfield => (h.1 field hfield).symm,
    fun field hfield value value' shape hvalue hvalue' hresolved =>
      (h.2 field hfield value' value shape hvalue' hvalue hresolved).symm⟩

/-- Whatever it evaluates to takes no more visits than there may be. -/
def Projector.Affords (p : Projector ρ) (answer : SanitizationContext → Option Sanitization)
    (effects : Effects Decision Projected) : Prop :=
  ∀ r n log, effects r n log → Answered answer log → n ≤ p.budget

theorem replies_iff_answered {p : Projector ρ} {answer : SanitizationContext → Option Sanitization}
    (h : ∀ history context, p.sanitize history context = answer context) {log : List Decision} :
    Replies p.Answers [] log ↔ Projector.Answered answer log := by
  have hanswers : p.Answers = fun _ decision => answer decision.context = some decision.answer := by
    funext history decision
    rw [Projector.Answers, h]
  rw [hanswers, replies_iff_forall]
  rfl

/-- A view is kept where the steps are as many, or affordable anyway. -/
theorem Ends.transfers {p : Projector ρ} {answer : SanitizationContext → Option Sanitization}
    {hidden : SensitivityKind → Prop}
    (hanswer : ∀ history context, p.sanitize history context = answer context)
    {x x' : Projecting Projected} {effects effects' : Effects Decision Projected}
    (htransfers : Projector.Transfers answer hidden effects effects')
    (haffords : (∃ kind, hidden kind) → p.Affords answer effects') (hx' : p.Does x' effects')
    {view : Json} (h : Ends p x effects view) : Ends p x' effects' view := by
  obtain ⟨st, -, heffects, hreplies, hbudget, houtput⟩ := h
  obtain ⟨n', log', heffects', hanswered', hsteps⟩ :=
    htransfers _ _ _ heffects ((replies_iff_answered hanswer).mp hreplies)
  have hbudget' : n' ≤ p.budget := by
    by_cases hnone : ∃ kind, hidden kind
    · exact haffords hnone _ _ _ heffects' hanswered'
    · rw [hsteps (not_exists.mp hnone)]
      exact hbudget
  have hreplies' := (replies_iff_answered hanswer).mpr hanswered'
  exact ⟨⟨n', log'⟩, (run_eq_ok_iff hx').mpr ⟨heffects', hreplies', hbudget'⟩, heffects', hreplies',
    hbudget', houtput⟩

theorem evaluatesArguments_transfers {p : Projector ρ}
    {answer : SanitizationContext → Option Sanitization} {hidden : SensitivityKind → Prop}
    (hhides : ∀ kind, hidden kind → Hides answer kind) {declared : List (SensitiveField ρ)}
    {arguments arguments' : List (Text × Json)}
    (h : p.AgreeArguments hidden declared arguments arguments') :
    Projector.Transfers answer hidden (p.EvaluatesArguments arguments declared)
      (p.EvaluatesArguments arguments' declared) := by
  rintro r n log ⟨hdistinct, entries, hentries, rfl⟩ hanswered
  obtain ⟨n', log', hentries', hanswered', hsteps⟩ := Projector.Fields.transfers h.1
    (fun field hfield value value' shape hvalue hvalue' hresolved path =>
      (h.2 field hfield value value' shape hvalue hvalue' hresolved).evaluates hhides path)
    entries n log hentries hanswered
  exact ⟨n', log', ⟨hdistinct, entries, hentries', rfl⟩, hanswered', hsteps⟩

theorem evaluatesResponse_transfers {p : Projector ρ}
    {answer : SanitizationContext → Option Sanitization} {hidden : SensitivityKind → Prop}
    (hhides : ∀ kind, hidden kind → Hides answer kind) {value value' : Json}
    {shape : SensitiveShape ρ} (h : p.Agrees hidden value value' shape 0) :
    Projector.Transfers answer hidden (p.EvaluatesResponse value shape)
      (p.EvaluatesResponse value' shape) := by
  rintro r n log ⟨hdepth, m, rfl, hevaluates⟩ hanswered
  obtain ⟨m', log', hevaluates', hanswered', hsteps⟩ :=
    h.evaluates hhides [] r m log hevaluates hanswered
  exact ⟨1 + m', log', ⟨hdepth, m', rfl, hevaluates'⟩, hanswered', fun hnone => by rw [hsteps hnone]⟩

/-- The default policy hides every kind but the public one. -/
theorem default_hides {kind : SensitivityKind} (h : kind ≠ .PUBLIC) :
    Hides (PolicySanitizer.default.toSanitizer.sanitize []) kind := by
  let redacted : List (Text × Sanitization) :=
    [SensitivityKind.CREDENTIAL, .TOKEN, .PHONE, .EMAIL, .IDENTIFIER, .SECRET].map
      fun kind => (kind.label, .redact)
  have hpublic : SensitivityKind.PUBLIC.label ≠ kind.label := by
    intro hlabel
    obtain ⟨label, hvalid⟩ := kind
    obtain rfl : SensitivityKind.PUBLIC.label = label := hlabel
    exact h rfl
  have hanswer (context : SanitizationContext) (hkind : context.kind = kind) :
      PolicySanitizer.default.toSanitizer.sanitize [] context =
        some ((Assoc.get redacted kind.label).getD .omitted) := by
    show some ((if SensitivityKind.PUBLIC.label = context.kind.label then some .reveal
      else Assoc.get redacted context.kind.label).getD .omitted) = _
    rw [hkind, if_neg hpublic]
  cases hrule : Assoc.get redacted kind.label with
  | none => exact .inl fun context hkind => by rw [hanswer context hkind, hrule]; rfl
  | some answer =>
    have hredact : answer = .redact := by
      obtain ⟨kind', -, hrule'⟩ := List.mem_map.mp (Assoc.mem_of_get hrule)
      exact (congrArg Prod.snd hrule').symm
    exact .inr fun context hkind => by rw [hanswer context hkind, hrule, hredact]; rfl

/-- A sequence of secrets, by the first resolver, where the second is that of one secret. -/
def secretsSchema : Schema Bool :=
  fun list => some (if list then .sequence false else .kind .SECRET)

/-- **A value without the form of its position omits the view**, and one with it is redacted:
a secret text stands where secrets are listed, and both are within the limits. -/
theorem nonconforming_shows :
    (SensitiveShape.sequence false).Carries secretsSchema (some (.kind .SECRET)) ∧
      Hides (PolicySanitizer.default.toSanitizer.sanitize []) .SECRET ∧
      ProjectionLimits.default.Fits 0 (.array [.string "a".toList]) ∧
      ProjectionLimits.default.Fits 0 (.string "a".toList) ∧
      (sanitizeArguments secretsSchema (some ⟨[⟨"keys".toList, true⟩], none⟩)
          [("keys".toList, .array [.string "a".toList])] .serialize
            PolicySanitizer.default.toSanitizer).value ≠
        (sanitizeArguments secretsSchema (some ⟨[⟨"keys".toList, true⟩], none⟩)
          [("keys".toList, .string "a".toList)] .serialize
            PolicySanitizer.default.toSanitizer).value := by
  have hsmall : ProjectionLimits.default.Small (.string "a".toList) :=
    show (utf8 "a".toList).length ≤ 512 by decide
  refine ⟨.items rfl rfl (.kind _), default_hides (by decide), ?_, ⟨hsmall, nofun⟩, fun h => ?_⟩
  · refine ⟨show 1 ≤ 32 by decide, fun part hpart => ?_⟩
    obtain rfl := List.mem_singleton.mp hpart
    exact ⟨show 1 ≤ 8 by decide, hsmall⟩
  · exact absurd (congrArg Option.isSome h) (by decide +kernel)

/-- **Projections are confidential.**  Requests and responses whose values agree have the
same view, within the node limit if a kind is hidden; a view shows only what stands at
positions with a kind and what the sanitizer answers there; and the default policy hides
every kind but the public one. -/
theorem projection_confidential (schema : Schema ρ) (sanitizer : Sanitizer)
    (answer : SanitizationContext → Option Sanitization)
    (hanswer : ∀ history context, sanitizer.sanitize history context = answer context) :
    (∀ hidden : SensitivityKind → Prop, (∀ kind, hidden kind → Hides answer kind) →
      (∀ sensitivity arguments arguments' direction,
        (∀ method limits, sensitivity = some method → sanitizer.limits = some limits →
          let p := Projector.new schema sanitizer .arguments direction limits
          p.AgreeArguments hidden method.arguments arguments arguments' ∧
            ((∃ kind, hidden kind) →
              p.Affords answer (p.EvaluatesArguments arguments method.arguments) ∧
                p.Affords answer (p.EvaluatesArguments arguments' method.arguments))) →
          (sanitizeArguments schema sensitivity arguments direction sanitizer).value =
            (sanitizeArguments schema sensitivity arguments' direction sanitizer).value) ∧
      ∀ parse sensitivity bytes bytes' direction,
        (∀ direction' shape limits, direction = some direction' →
          (sensitivity.bind MethodSensitivity.response).bind schema = some shape →
          sanitizer.limits = some limits →
            let p := Projector.new schema sanitizer .response direction' limits
            bytes.length ≤ limits.maxInputBytes ∧ bytes'.length ≤ limits.maxInputBytes ∧
              ∃ value value', parse bytes = some value ∧ parse bytes' = some value' ∧
                p.Agrees hidden value value' shape 0 ∧
                ((∃ kind, hidden kind) → p.Affords answer (p.EvaluatesResponse value shape) ∧
                  p.Affords answer (p.EvaluatesResponse value' shape))) →
          (sanitizeResponse schema parse sensitivity bytes direction sanitizer).value =
            (sanitizeResponse schema parse sensitivity bytes' direction sanitizer).value) ∧
    (∀ sensitivity arguments direction view,
      (sanitizeArguments schema sensitivity arguments direction sanitizer).value = some view →
        ∃ method limits members, sensitivity = some method ∧ sanitizer.limits = some limits ∧
          view = .object members ∧
            (Projector.new schema sanitizer .arguments direction limits).AlongMembers answer arguments
              method.arguments [] members) ∧
    (∀ parse sensitivity bytes direction view,
      (sanitizeResponse schema parse sensitivity bytes direction sanitizer).value = some view →
        ∃ direction' shape limits value, direction = some direction' ∧
          (sensitivity.bind MethodSensitivity.response).bind schema = some shape ∧
          sanitizer.limits = some limits ∧ parse bytes = some value ∧
            (Projector.new schema sanitizer .response direction' limits).Along answer value shape []
              view) ∧
    ∀ kind, kind ≠ .PUBLIC → Hides (PolicySanitizer.default.toSanitizer.sanitize []) kind := by
  refine ⟨fun hidden hhides => ⟨?_, ?_⟩, ?_, ?_, fun kind => default_hides⟩
  · intro sensitivity arguments arguments' direction hagree
    refine Option.ext fun view => ?_
    rw [sanitizeArguments_eq_some_iff, sanitizeArguments_eq_some_iff]
    refine exists_congr fun method => exists_congr fun limits => and_congr_right fun hmethod =>
      and_congr_right fun hlimits => ?_
    obtain ⟨hagree, haffords⟩ := hagree method limits hmethod hlimits
    constructor
    · exact Ends.transfers hanswer (evaluatesArguments_transfers hhides hagree)
        (fun hnone => (haffords hnone).2) (Projector.denotes_projectArguments _ _ _)
    · exact Ends.transfers hanswer (evaluatesArguments_transfers hhides hagree.symm)
        (fun hnone => (haffords hnone).1) (Projector.denotes_projectArguments _ _ _)
  · intro parse sensitivity bytes bytes' direction hagree
    refine Option.ext fun view => ?_
    rw [sanitizeResponse_eq_some_iff, sanitizeResponse_eq_some_iff]
    constructor
    · rintro ⟨direction', shape, limits, value, hdirection, hshape, hlimits, -, hvalue, hends⟩
      obtain ⟨-, hbytes', value₁, value', hvalue₁, hvalue', hagree, haffords⟩ :=
        hagree direction' shape limits hdirection hshape hlimits
      cases hvalue.symm.trans hvalue₁
      exact ⟨direction', shape, limits, value', hdirection, hshape, hlimits, hbytes', hvalue',
        hends.transfers hanswer (evaluatesResponse_transfers hhides hagree)
          (fun hnone => (haffords hnone).2) (Projector.denotes_project _ _ _)⟩
    · rintro ⟨direction', shape, limits, value', hdirection, hshape, hlimits, -, hvalue', hends⟩
      obtain ⟨hbytes, -, value, value₁, hvalue, hvalue₁, hagree, haffords⟩ :=
        hagree direction' shape limits hdirection hshape hlimits
      cases hvalue'.symm.trans hvalue₁
      exact ⟨direction', shape, limits, value, hdirection, hshape, hlimits, hbytes, hvalue,
        hends.transfers hanswer (evaluatesResponse_transfers hhides hagree.symm)
          (fun hnone => (haffords hnone).1) (Projector.denotes_project _ _ _)⟩
  · intro sensitivity arguments direction view h
    obtain ⟨method, limits, hmethod, hlimits, st, -, heffects, hreplies, -, -⟩ :=
      sanitizeArguments_eq_some_iff.mp h
    obtain ⟨hdistinct, entries, hentries, hview⟩ := heffects
    have hperm := SortedMap.insertAll_perm (hdistinct.sublist hentries.names)
    have hanswered := (replies_iff_answered hanswer).mp hreplies
    refine ⟨method, limits, _, hmethod, hlimits, Projector.object_eq_value hview,
      .of_forall fun e he => ?_⟩
    obtain ⟨field, value, shape, hfield, hname, hvalue, hresolved, _, _, hentry, hanswered⟩ :=
      hentries.entry hanswered (hperm.mem_iff.mp he)
    exact ⟨field, value, shape, hfield, hname, hvalue, hresolved, hentry.along hanswered⟩
  · intro parse sensitivity bytes direction view h
    obtain ⟨direction', shape, limits, value, hdirection, hshape, hlimits, -, hvalue, st, -, heffects,
      hreplies, -, -⟩ := sanitizeResponse_eq_some_iff.mp h
    obtain ⟨-, m, -, hevaluates⟩ := heffects
    exact ⟨direction', shape, limits, value, hdirection, hshape, hlimits, hvalue,
      hevaluates.along ((replies_iff_answered hanswer).mp hreplies)⟩

unseal Lib.Usize.size in
/-- Two requests with different tokens, one of them with an undeclared argument. -/
theorem projection_confidential_token :
    let schema : Schema Unit := fun _ => some (.kind .TOKEN)
    let policy := PolicySanitizer.default.toSanitizer
    let sensitivity : MethodSensitivity Unit := ⟨[⟨"token".toList, ()⟩], none⟩
    (sanitizeArguments schema (some sensitivity) [("token".toList, .string "ab".toList)] .serialize
        policy).value =
      (sanitizeArguments schema (some sensitivity)
        [("user".toList, .null), ("token".toList, .string "cde".toList)] .serialize policy).value := by
  intro schema policy sensitivity
  refine (((projection_confidential schema policy (policy.sanitize []) fun _ _ => rfl).1 (· ≠ .PUBLIC)
    fun kind => default_hides).1 _ _ _ _) fun method limits hmethod hlimits => ?_
  cases hmethod
  cases hlimits
  have htoken : SensitivityKind.TOKEN ≠ .PUBLIC := by decide
  have hfits (value : Text) (hshort : (utf8 value).length ≤ 512) :
      ProjectionLimits.default.Fits 0 (.string value) := ⟨hshort, nofun⟩
  refine ⟨⟨by decide, fun field hfield value value' shape hvalue hvalue' hshape => ?_⟩, fun _ => ?_⟩
  · obtain rfl := List.mem_singleton.mp hfield
    cases hvalue
    cases hvalue'
    cases hshape
    exact .hidden (.kind _) htoken (hfits _ (by decide)) (hfits _ (by decide))
      ⟨fun _ => .kind _ _, fun _ => .kind _ _⟩
  · have hredacted (arguments : List (Text × Json)) (value : Text)
        (hvalue : Assoc.get arguments "token".toList = some (.string value)) :
        (Projector.new schema policy .arguments .serialize .default).Affords (policy.sanitize [])
          ((Projector.new schema policy .arguments .serialize .default).EvaluatesArguments arguments
            sensitivity.arguments) := by
      rintro r n log ⟨-, entries, hentries, -⟩ hanswered
      cases hentries with
      | absent missing => exact nomatch missing.symm.trans hvalue
      | present found resolved _ projected rest =>
        cases found.symm.trans hvalue
        cases resolved
        cases rest
        obtain ⟨-, m, rfl, ⟨_, _, a⟩, rfl, rfl, -, -, rfl, rfl⟩ := projected
        have ha : some Sanitization.redact = some a :=
          hanswered _ (List.mem_append_left _ (List.mem_singleton.mpr rfl))
        cases ha
        show 1 ≤ min 256 (2 ^ 64 - 1)
        decide
    exact ⟨hredacted _ _ rfl, hredacted _ _ rfl⟩

end Fusen.Projection
