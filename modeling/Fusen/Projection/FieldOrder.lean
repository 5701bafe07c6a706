import Fusen.Projection.Semantics
import Mathlib.Data.Option.Basic

/-!
# Field order

The order of a field table shows in one place only: the look-ahead into the elements of an
empty array stops at the first classified value, and fails where it overruns the limits
before (`hasClassifiedValue_spec`).  Unless the traversal `Meets` an empty array whose
elements have both, reordered tables give the same view (`reordered_projection`).
-/

namespace Fusen.Projection

open Lib Metered

variable {ρ : Type}

/-! ## Reordered tables -/

/-- The same shape, but for the order of its field tables. -/
inductive Reorders : SensitiveShape ρ → SensitiveShape ρ → Prop
  | same (shape : SensitiveShape ρ) : Reorders shape shape
  | fields {serialize serialize' deserialize deserialize' : List (SensitiveField ρ)}
      (serialized : serialize.Perm serialize') (deserialized : deserialize.Perm deserialize') :
      Reorders (.fields serialize deserialize) (.fields serialize' deserialize')

theorem Reorders.symm {shape shape' : SensitiveShape ρ} (h : Reorders shape shape') :
    Reorders shape' shape := by
  cases h with
  | same => exact .same shape
  | fields serialized deserialized => exact .fields serialized.symm deserialized.symm

def Schema.Reorders (schema schema' : Schema ρ) : Prop :=
  ∀ resolver, Option.Rel Projection.Reorders (schema resolver) (schema' resolver)

namespace Schema.Reorders

variable {schema schema' : Schema ρ}

theorem symm (h : schema.Reorders schema') : schema'.Reorders schema := by
  intro resolver
  have hrel := h resolver
  generalize schema resolver = o, schema' resolver = o' at hrel
  cases hrel with
  | none => exact .none
  | some hshape => exact .some hshape.symm

theorem resolved (h : schema.Reorders schema') {resolver : ρ} {shape : SensitiveShape ρ}
    (hshape : schema resolver = some shape) :
    ∃ shape', schema' resolver = some shape' ∧ Projection.Reorders shape shape' := by
  have hrel := h resolver
  rw [hshape] at hrel
  generalize schema' resolver = o at hrel
  cases hrel with
  | some hshape => exact ⟨_, rfl, hshape⟩

/-- What is the same of reordered shapes is the same of a resolver. -/
theorem bind_eq (h : schema.Reorders schema') {α : Type} {f f' : SensitiveShape ρ → Option α}
    (hf : ∀ {shape shape'}, Projection.Reorders shape shape' → f shape = f' shape') (resolver : ρ) :
    (schema resolver).bind f = (schema' resolver).bind f' := by
  have hrel := h resolver
  generalize schema resolver = o, schema' resolver = o' at hrel
  cases hrel with
  | none => rfl
  | some hshape => exact hf hshape

end Schema.Reorders

/-- An object stays an object, with its tables reordered. -/
theorem Reorders.tables {serialize deserialize : List (SensitiveField ρ)}
    {shape' : SensitiveShape ρ} (h : Reorders (.fields serialize deserialize) shape') :
    ∃ serialize' deserialize', shape' = .fields serialize' deserialize' ∧
      ∀ direction : ProjectionDirection,
        (direction.fields serialize deserialize).Perm (direction.fields serialize' deserialize') := by
  cases h with
  | same => exact ⟨serialize, deserialize, rfl, fun _ => .refl _⟩
  | @fields _ serialize' _ deserialize' serialized deserialized =>
    refine ⟨serialize', deserialize', rfl, fun direction => ?_⟩
    cases direction with
    | serialize => exact serialized
    | deserialize => exact deserialized

namespace Projector

variable (p : Projector ρ)

/-! ## The look-ahead without an order -/

/-- There is a classified value within so many levels. -/
def Finds : (room : Nat) → SensitiveShape ρ → Prop
  | 0, _ | _ + 1, .opaqueValue => False
  | _ + 1, .kind _ => True
  | room + 1, .fields serialize deserialize =>
    ∃ field ∈ p.direction.fields serialize deserialize,
      ∃ shape, p.schema field.resolver = some shape ∧ Finds room shape
  | room + 1, .optional resolver | room + 1, .sequence resolver
  | room + 1, .fixedSequence resolver _ => ∃ shape, p.schema resolver = some shape ∧ Finds room shape

/-- Somewhere the levels do not suffice, or a resolver panics. -/
def Overruns : (room : Nat) → SensitiveShape ρ → Prop
  | 0, _ => True
  | _ + 1, .opaqueValue | _ + 1, .kind _ => False
  | room + 1, .fields serialize deserialize =>
    ∃ field ∈ p.direction.fields serialize deserialize,
      ∀ shape, p.schema field.resolver = some shape → Overruns room shape
  | room + 1, .optional resolver | room + 1, .sequence resolver
  | room + 1, .fixedSequence resolver _ => ∀ shape, p.schema resolver = some shape → Overruns room shape

/-- What a look-ahead that gives `answer` says of the value. -/
def Explains (answer : Option Bool) (finds overruns : Prop) : Prop :=
  match answer with
  | some true => finds
  | some false => ¬ finds ∧ ¬ overruns
  | none => overruns

theorem explains_bind {classified : SensitiveShape ρ → Option Bool}
    {finds overruns : SensitiveShape ρ → Prop}
    (h : ∀ shape, Explains (classified shape) (finds shape) (overruns shape)) (resolver : ρ) :
    Explains ((p.schema resolver).bind classified)
      (∃ shape, p.schema resolver = some shape ∧ finds shape)
      (∀ shape, p.schema resolver = some shape → overruns shape) := by
  cases hshape : p.schema resolver with
  | none => exact nofun
  | some shape => simpa using h shape

theorem explains_anyClassified {classified : SensitiveShape ρ → Option Bool}
    {finds overruns : SensitiveShape ρ → Prop}
    (h : ∀ shape, Explains (classified shape) (finds shape) (overruns shape))
    (fields : List (SensitiveField ρ)) :
    Explains (p.anyClassified classified fields)
      (∃ field ∈ fields, ∃ shape, p.schema field.resolver = some shape ∧ finds shape)
      (∃ field ∈ fields, ∀ shape, p.schema field.resolver = some shape → overruns shape) := by
  induction fields with
  | nil => exact ⟨(fun ⟨_, h, _⟩ => nomatch h), (fun ⟨_, h, _⟩ => nomatch h)⟩
  | cons field fields ih =>
    have hfield := p.explains_bind h field.resolver
    unfold anyClassified
    generalize (p.schema field.resolver).bind classified = answer at hfield
    simp only [List.exists_mem_cons_iff]
    match answer, hfield with
    | none, hfield => exact .inl hfield
    | some true, hfield => exact .inl hfield
    | some false, hfield =>
      show Explains (p.anyClassified classified fields) _ _
      generalize p.anyClassified classified fields = rest at ih
      match rest, ih with
      | none, ih => exact .inr ih
      | some true, ih => exact .inr ih
      | some false, ih => exact ⟨not_or.mpr ⟨hfield.1, ih.1⟩, not_or.mpr ⟨hfield.2, ih.2⟩⟩

theorem hasClassifiedValue_spec (room : Nat) (shape : SensitiveShape ρ) :
    Explains (p.hasClassifiedValue room shape) (p.Finds room shape) (p.Overruns room shape) := by
  induction room generalizing shape with
  | zero => exact trivial
  | succ room ih =>
    cases shape with
    | opaqueValue => exact ⟨id, id⟩
    | kind _ => exact trivial
    | fields _ _ => exact p.explains_anyClassified ih _
    | optional resolver | sequence resolver | fixedSequence resolver _ =>
      exact p.explains_bind ih resolver

/-- The elements of an empty array have both a classified value and an overrun. -/
def Ambiguous (element : SensitiveShape ρ) : Prop :=
  p.inherited element = some none ∧ p.Finds (p.limits.maxDepth + 1) element ∧
    p.Overruns (p.limits.maxDepth + 1) element

/-- The traversal meets an empty array of ambiguous elements. -/
inductive Meets : Json → SensitiveShape ρ → Prop
  | sequence {resolver : ρ} {element : SensitiveShape ρ}
      (resolved : p.schema resolver = some element) (ambiguous : p.Ambiguous element) :
      Meets (.array []) (.sequence resolver)
  | fixedSequence {resolver : ρ} {element : SensitiveShape ρ}
      (resolved : p.schema resolver = some element) (ambiguous : p.Ambiguous element) :
      Meets (.array []) (.fixedSequence resolver 0)
  | member {values : List (Text × Json)} {serialize deserialize : List (SensitiveField ρ)}
      {field : SensitiveField ρ} {value : Json} {shape : SensitiveShape ρ}
      (declared : field ∈ p.direction.fields serialize deserialize)
      (found : Assoc.get values field.name = some value)
      (resolved : p.schema field.resolver = some shape) (meets : Meets value shape) :
      Meets (.object values) (.fields serialize deserialize)
  | inside {value : Json} {resolver : ρ} {inner : SensitiveShape ρ}
      (resolved : p.schema resolver = some inner) (unclassified : p.inherited inner = some none)
      (meets : Meets value inner) : Meets value (.optional resolver)
  | item {values : List Json} {resolver : ρ} {element : SensitiveShape ρ} {value : Json}
      (resolved : p.schema resolver = some element)
      (unclassified : p.inherited element = some none) (listed : value ∈ values)
      (meets : Meets value element) : Meets (.array values) (.sequence resolver)
  | fixedItem {values : List Json} {resolver : ρ} {element : SensitiveShape ρ} {length : Nat}
      {value : Json} (resolved : p.schema resolver = some element)
      (unclassified : p.inherited element = some none) (listed : value ∈ values)
      (meets : Meets value element) : Meets (.array values) (.fixedSequence resolver length)

/-! ## Reordering changes nothing of this -/

def withSchema (schema' : Schema ρ) : Projector ρ := { p with schema := schema' }

variable {p} {schema' : Schema ρ}

theorem inheritedClassification_reorder (h : p.schema.Reorders schema') {room : Nat}
    {shape shape' : SensitiveShape ρ} (hshape : Reorders shape shape') :
    p.inheritedClassification room shape =
      (p.withSchema schema').inheritedClassification room shape' := by
  induction room generalizing shape shape' with
  | zero => rfl
  | succ room ih =>
    cases hshape with
    | fields _ _ => rfl
    | same =>
      cases shape with
      | opaqueValue | kind _ | fields _ _ => rfl
      | optional resolver | sequence resolver | fixedSequence resolver _ =>
        exact h.bind_eq (fun hinner => ih hinner) resolver

theorem inherited_reorder (h : p.schema.Reorders schema') {shape shape' : SensitiveShape ρ}
    (hshape : Reorders shape shape') : p.inherited shape = (p.withSchema schema').inherited shape' :=
  inheritedClassification_reorder h hshape

theorem Finds.reorder (h : p.schema.Reorders schema') {room : Nat}
    {shape shape' : SensitiveShape ρ} (hshape : Reorders shape shape') (hfinds : p.Finds room shape) :
    (p.withSchema schema').Finds room shape' := by
  induction room generalizing shape shape' with
  | zero => exact hfinds.elim
  | succ room ih =>
    have hbelow {resolver : ρ}
        (hfinds : ∃ shape, p.schema resolver = some shape ∧ p.Finds room shape) :
        ∃ shape', schema' resolver = some shape' ∧ (p.withSchema schema').Finds room shape' := by
      obtain ⟨inner, hinner, hfinds⟩ := hfinds
      obtain ⟨inner', hinner', hreorders⟩ := h.resolved hinner
      exact ⟨inner', hinner', ih hreorders hfinds⟩
    cases shape with
    | opaqueValue => exact hfinds.elim
    | kind _ => cases hshape; exact trivial
    | fields _ _ =>
      obtain ⟨serialize', deserialize', rfl, htables⟩ := hshape.tables
      obtain ⟨field, hfield, hfinds⟩ := hfinds
      exact ⟨field, (htables p.direction).mem_iff.mp hfield, hbelow hfinds⟩
    | optional resolver | sequence resolver | fixedSequence resolver _ =>
      cases hshape
      exact hbelow hfinds

theorem Overruns.reorder (h : p.schema.Reorders schema') {room : Nat}
    {shape shape' : SensitiveShape ρ} (hshape : Reorders shape shape')
    (hoverruns : p.Overruns room shape) : (p.withSchema schema').Overruns room shape' := by
  induction room generalizing shape shape' with
  | zero => exact trivial
  | succ room ih =>
    have hbelow {resolver : ρ}
        (hoverruns : ∀ shape, p.schema resolver = some shape → p.Overruns room shape) (shape' : _)
        (hinner' : schema' resolver = some shape') : (p.withSchema schema').Overruns room shape' := by
      obtain ⟨inner, hinner, hreorders⟩ := h.symm.resolved hinner'
      exact ih hreorders.symm (hoverruns inner hinner)
    cases shape with
    | opaqueValue | kind _ => exact hoverruns.elim
    | fields _ _ =>
      obtain ⟨serialize', deserialize', rfl, htables⟩ := hshape.tables
      obtain ⟨field, hfield, hoverruns⟩ := hoverruns
      exact ⟨field, (htables p.direction).mem_iff.mp hfield, hbelow hoverruns⟩
    | optional resolver | sequence resolver | fixedSequence resolver _ =>
      cases hshape
      exact hbelow hoverruns

theorem Ambiguous.reorder (h : p.schema.Reorders schema') {shape shape' : SensitiveShape ρ}
    (hshape : Reorders shape shape') (hambiguous : p.Ambiguous shape) :
    (p.withSchema schema').Ambiguous shape' :=
  ⟨inherited_reorder h hshape ▸ hambiguous.1, hambiguous.2.1.reorder h hshape,
    hambiguous.2.2.reorder h hshape⟩

theorem Meets.reorder (h : p.schema.Reorders schema') {value : Json}
    {shape shape' : SensitiveShape ρ} (hmeets : p.Meets value shape) (hshape : Reorders shape shape') :
    (p.withSchema schema').Meets value shape' := by
  induction hmeets generalizing shape' with
  | sequence resolved ambiguous =>
    cases hshape
    obtain ⟨_, resolved', hreorders⟩ := h.resolved resolved
    exact .sequence resolved' (ambiguous.reorder h hreorders)
  | fixedSequence resolved ambiguous =>
    cases hshape
    obtain ⟨_, resolved', hreorders⟩ := h.resolved resolved
    exact .fixedSequence resolved' (ambiguous.reorder h hreorders)
  | member declared found resolved _ ih =>
    obtain ⟨_, _, rfl, htables⟩ := hshape.tables
    obtain ⟨_, resolved', hreorders⟩ := h.resolved resolved
    exact .member ((htables _).mem_iff.mp declared) found resolved' (ih hreorders)
  | inside resolved unclassified _ ih =>
    cases hshape
    obtain ⟨_, resolved', hreorders⟩ := h.resolved resolved
    exact .inside resolved' (inherited_reorder h hreorders ▸ unclassified) (ih hreorders)
  | item resolved unclassified listed _ ih =>
    cases hshape
    obtain ⟨_, resolved', hreorders⟩ := h.resolved resolved
    exact .item resolved' (inherited_reorder h hreorders ▸ unclassified) listed (ih hreorders)
  | fixedItem resolved unclassified listed _ ih =>
    cases hshape
    obtain ⟨_, resolved', hreorders⟩ := h.resolved resolved
    exact .fixedItem resolved' (inherited_reorder h hreorders ▸ unclassified) listed (ih hreorders)

theorem Conforms.reorder (h : p.schema.Reorders schema') {value : Json}
    {shape shape' : SensitiveShape ρ} (hconforms : p.Conforms value shape)
    (hshape : Reorders shape shape') : (p.withSchema schema').Conforms value shape' := by
  induction hconforms generalizing shape' with
  | kind value kind =>
    cases hshape
    exact .kind value kind
  | null resolver =>
    cases hshape
    exact .null resolver
  | optional resolved _ ih =>
    cases hshape
    obtain ⟨_, resolved', hreorders⟩ := h.resolved resolved
    exact .optional resolved' (ih hreorders)
  | sequence resolved _ ih =>
    cases hshape
    obtain ⟨_, resolved', hreorders⟩ := h.resolved resolved
    exact .sequence resolved' fun value hvalue => ih value hvalue hreorders
  | fixedSequence resolved same _ ih =>
    cases hshape
    obtain ⟨_, resolved', hreorders⟩ := h.resolved resolved
    exact .fixedSequence resolved' same fun value hvalue => ih value hvalue hreorders

theorem Classified.reorder (h : p.schema.Reorders schema') {value : Json}
    {shape shape' : SensitiveShape ρ} (hshape : Reorders shape shape') {kind : SensitivityKind}
    {depth n : Nat} {path : Text} {r : Projected} {log : List Decision}
    (hclassified : p.Classified value shape kind depth path r n log) :
    (p.withSchema schema').Classified value shape' kind depth path r n log :=
  ⟨⟨hclassified.1.1, hclassified.1.2.reorder h hshape⟩, hclassified.2⟩

/-! ## Reordered traversals -/

/-- The same results, with the decisions in another order; or else no result at all, where
the condition holds. -/
def Keeps {α : Type} (condition : Prop) (effects effects' : Effects Decision α) : Prop :=
  ∀ r n log, effects r n log → (∃ log', log'.Perm log ∧ effects' r n log') ∨
    condition ∧ ∀ r n log, ¬ effects' r n log

theorem Keeps.mono {α : Type} {condition condition' : Prop} {effects effects' : Effects Decision α}
    (h : Keeps condition effects effects') (himp : condition → condition') :
    Keeps condition' effects effects' :=
  fun r n log heffects => (h r n log heffects).imp_right fun h => ⟨himp h.1, h.2⟩

theorem Keeps.of_imp {α : Type} {condition : Prop} {effects effects' : Effects Decision α}
    (h : ∀ r n log, effects r n log → effects' r n log) : Keeps condition effects effects' :=
  fun r n log heffects => .inl ⟨log, .refl _, h r n log heffects⟩

section

variable {project project' : Json → SensitiveShape ρ → Text → Effects Decision Projected}
  {values : List (Text × Json)} {depth : Nat} {path : Text}

/-- A member of the object meets an ambiguous array. -/
def MeetsMember (p : Projector ρ) (values : List (Text × Json)) (fields : List (SensitiveField ρ)) :
    Prop :=
  ∃ field ∈ fields, ∃ value shape, Assoc.get values field.name = some value ∧
    p.schema field.resolver = some shape ∧ p.Meets value shape

theorem Fields.keeps (h : p.schema.Reorders schema')
    (hproject : ∀ value shape shape' path, Reorders shape shape' →
      Keeps (p.Meets value shape) (project value shape path) (project' value shape' path))
    (fields : List (SensitiveField ρ)) :
    Keeps (p.MeetsMember values fields) (p.Fields project values depth path fields)
      ((p.withSchema schema').Fields project' values depth path fields) := by
  intro entries n log hentries
  induction hentries with
  | nil => exact .inl ⟨[], .refl _, .nil⟩
  | absent missing _ ih =>
    rcases ih with ⟨log', hperm, rest⟩ | ⟨⟨field', hfield', hmeets⟩, hnone⟩
    · exact .inl ⟨log', hperm, .absent missing rest⟩
    · refine .inr ⟨⟨field', List.mem_cons_of_mem _ hfield', hmeets⟩, fun entries n log h => ?_⟩
      cases h with
      | absent _ rest => exact hnone _ _ _ rest
      | present found => exact nomatch missing.symm.trans found
  | @present field fields value shape r entries m n log log' found resolved allowed projected _ ih =>
    obtain ⟨shape', resolved', hreorders⟩ := h.resolved resolved
    -- any other traversal of this field projects the same value along the same shape
    have hpresent {entries : List (Text × Json)} {n : Nat} {log : List Decision}
        (h : (p.withSchema schema').Fields project' values depth path (field :: fields) entries n log) :
        (∃ r n log, project' value shape' (pushPathSegment path field.name) r n log) ∧
          ∃ entries n log, (p.withSchema schema').Fields project' values depth path fields entries n log := by
      cases h with
      | absent missing => exact nomatch missing.symm.trans found
      | present found' resolved'' _ projected' rest =>
        cases found.symm.trans found'
        cases resolved'.symm.trans resolved''
        exact ⟨⟨_, _, _, projected'⟩, _, _, _, rest⟩
    rcases hproject value shape shape' _ hreorders _ _ _ projected with
      ⟨log₁, hperm₁, projected'⟩ | ⟨hmeets, hnone⟩
    · rcases ih with ⟨log₂, hperm₂, rest⟩ | ⟨⟨field', hfield', hmeets⟩, hnone⟩
      · exact .inl ⟨_, hperm₁.append hperm₂, .present found resolved' allowed projected' rest⟩
      · refine .inr ⟨⟨field', List.mem_cons_of_mem _ hfield', hmeets⟩, fun entries n log h => ?_⟩
        obtain ⟨-, _, _, _, rest⟩ := hpresent h
        exact hnone _ _ _ rest
    · refine .inr ⟨⟨field, List.mem_cons_self, value, shape, found, resolved, hmeets⟩, ?_⟩
      intro entries n log h
      obtain ⟨⟨_, _, _, projected'⟩, -⟩ := hpresent h
      exact hnone _ _ _ projected'

/-- A reordered table gives the same entries in another order. -/
theorem Fields.perm {fields fields' : List (SensitiveField ρ)} (hperm : fields.Perm fields')
    {entries : List (Text × Json)} {n : Nat} {log : List Decision}
    (h : p.Fields project values depth path fields entries n log) :
    ∃ entries' log', entries'.Perm entries ∧ log'.Perm log ∧
      p.Fields project values depth path fields' entries' n log' := by
  induction hperm generalizing entries n log with
  | nil => exact ⟨entries, log, .refl _, .refl _, h⟩
  | cons field _ ih =>
    cases h with
    | absent missing rest =>
      obtain ⟨_, _, hentries, hlog, rest⟩ := ih rest
      exact ⟨_, _, hentries, hlog, .absent missing rest⟩
    | present found resolved allowed projected rest =>
      obtain ⟨_, _, hentries, hlog, rest⟩ := ih rest
      exact ⟨_, _, hentries.append_left _, hlog.append_left _,
        .present found resolved allowed projected rest⟩
  | swap field field' fields =>
    cases h with
    | absent missing rest =>
      cases rest with
      | absent missing' rest => exact ⟨_, _, .refl _, .refl _, .absent missing' (.absent missing rest)⟩
      | present found resolved allowed projected rest =>
        exact ⟨_, _, .refl _, .refl _, .present found resolved allowed projected (.absent missing rest)⟩
    | present found resolved allowed projected rest =>
      cases rest with
      | absent missing rest =>
        exact ⟨_, _, .refl _, .refl _, .absent missing (.present found resolved allowed projected rest)⟩
      | @present _ _ _ _ _ _ m' n' _ _ found' resolved' allowed' projected' rest =>
        have hswapped : p.Fields project values depth path (field :: field' :: fields) _ _ _ :=
          .present found' resolved' allowed' projected' (.present found resolved allowed projected rest)
        rw [Nat.add_left_comm] at hswapped
        refine ⟨_, _, ?_, ?_, hswapped⟩
        · rw [← List.append_assoc, ← List.append_assoc]
          exact List.perm_append_comm.append_right _
        · rw [← List.append_assoc, ← List.append_assoc]
          exact List.perm_append_comm.append_right _
  | trans _ _ ih ih' =>
    obtain ⟨_, _, hentries, hlog, h⟩ := ih h
    obtain ⟨_, _, hentries', hlog', h⟩ := ih' h
    exact ⟨_, _, hentries'.trans hentries, hlog'.trans hlog, h⟩

theorem object_perm {entries entries' : List (Text × Json)} (hperm : entries'.Perm entries)
    (hdistinct : (entries.map Prod.fst).Nodup) :
    Projected.object entries' = Projected.object entries := by
  have hsorted : SortedMap.insertAll [] entries' = SortedMap.insertAll [] entries := by
    refine (SortedMap.sorted_insertAll _).eq_of_perm (SortedMap.sorted_insertAll _) ?_
    have hdistinct' := (hperm.map Prod.fst).nodup_iff.mpr hdistinct
    exact (SortedMap.insertAll_perm hdistinct').trans
      (hperm.trans (SortedMap.insertAll_perm hdistinct).symm)
  unfold Projected.object
  rw [hsorted]
  by_cases hempty : entries = []
  · subst hempty
    rw [hperm.eq_nil]
  · rw [if_neg hempty, if_neg fun h => hempty (h ▸ hperm).symm.eq_nil]

/-- **The view of an object does not depend on the order of its table.** -/
theorem keeps_object (h : p.schema.Reorders schema')
    (hproject : ∀ value shape shape' path, Reorders shape shape' →
      Keeps (p.Meets value shape) (project value shape path) (project' value shape' path))
    {fields fields' : List (SensitiveField ρ)} (hperm : fields.Perm fields') :
    Keeps (p.MeetsMember values fields)
      (fun r n log => (fields.map SensitiveField.name).Nodup ∧ ∃ entries,
        p.Fields project values depth path fields entries n log ∧ r = Projected.object entries)
      (fun r n log => (fields'.map SensitiveField.name).Nodup ∧ ∃ entries,
        (p.withSchema schema').Fields project' values depth path fields' entries n log ∧
          r = Projected.object entries) := by
  rintro r n log ⟨hdistinct, entries, hentries, rfl⟩
  rcases Fields.keeps h hproject fields entries n log hentries with
    ⟨log', hlog, hkept⟩ | ⟨hmeets, hnone⟩
  · obtain ⟨entries', log'', hsame, hlog', hmoved⟩ := hkept.perm hperm
    refine .inl ⟨log'', hlog'.trans hlog, ?_, entries', hmoved, ?_⟩
    · exact (hperm.map SensitiveField.name).nodup_iff.mp hdistinct
    · exact (object_perm hsame (hdistinct.sublist hentries.names)).symm
  · refine .inr ⟨hmeets, ?_⟩
    rintro r n log ⟨-, entries, hmoved, -⟩
    obtain ⟨_, _, -, -, hmoved⟩ := hmoved.perm hperm.symm
    exact hnone _ _ _ hmoved

end

theorem Items.keeps {project project' : Json → Effects Decision Projected} {depth : Nat}
    {meets : Json → Prop} (hproject : ∀ value, Keeps (meets value) (project value) (project' value))
    (values : List Json) :
    Keeps (∃ value ∈ values, meets value) (p.Items project depth values)
      ((p.withSchema schema').Items project' depth values) := by
  intro items n log hitems
  induction hitems with
  | nil => exact .inl ⟨[], .refl _, .nil⟩
  | @cons value values _ _ _ _ _ _ allowed projected _ ih =>
    rcases hproject value _ _ _ projected with ⟨log₁, hperm₁, projected'⟩ | ⟨hmeets, hnone⟩
    · rcases ih with ⟨log₂, hperm₂, rest⟩ | ⟨⟨value', hvalue', hmeets⟩, hnone⟩
      · exact .inl ⟨_, hperm₁.append hperm₂, .cons allowed projected' rest⟩
      · refine .inr ⟨⟨value', List.mem_cons_of_mem _ hvalue', hmeets⟩, fun items n log h => ?_⟩
        cases h with
        | cons _ _ rest => exact hnone _ _ _ rest
    · refine .inr ⟨⟨value, List.mem_cons_self, hmeets⟩, fun items n log h => ?_⟩
      cases h with
      | cons _ projected' _ => exact hnone _ _ _ projected'

/-- Only for an empty array the look-ahead is asked, and only an ambiguous one may answer
otherwise. -/
theorem Gathers.keeps (h : p.schema.Reorders schema') {element element' : SensitiveShape ρ}
    (helement : Reorders element element') (hclass : p.inherited element = some none)
    {values items : List Json} {r : Projected} (hgathers : p.Gathers element values items r) :
    (p.withSchema schema').Gathers element' values items r ∨
      (values = [] ∧ p.Ambiguous element) ∧
        ∀ r, ¬ (p.withSchema schema').Gathers element' [] [] r := by
  by_cases hempty : items = [] ∧ values = []
  · obtain ⟨rfl, rfl⟩ := hempty
    obtain ⟨classified, hclassified, rfl⟩ := hgathers
    have hfirst := p.hasClassifiedValue_spec (p.limits.maxDepth + 1) element
    have hsecond := (p.withSchema schema').hasClassifiedValue_spec (p.limits.maxDepth + 1) element'
    -- back along the reordered schema
    have hback : (p.withSchema schema').schema.Reorders p.schema := h.symm
    have hoverruns : (p.withSchema schema').Overruns (p.limits.maxDepth + 1) element' →
        p.Overruns (p.limits.maxDepth + 1) element := Overruns.reorder hback helement.symm
    have hfinds : (p.withSchema schema').Finds (p.limits.maxDepth + 1) element' →
        p.Finds (p.limits.maxDepth + 1) element := Finds.reorder hback helement.symm
    rw [hclassified] at hfirst
    cases hanswer : (p.withSchema schema').hasClassifiedValue (p.limits.maxDepth + 1) element' with
    | none =>
      rw [hanswer] at hsecond
      cases classified with
      | false => exact (hfirst.2 (hoverruns hsecond)).elim
      | true =>
        refine .inr ⟨⟨rfl, hclass, hfirst, hoverruns hsecond⟩, fun r hr => ?_⟩
        obtain ⟨_, hsome, _⟩ := hr
        exact nomatch hanswer.symm.trans hsome
    | some answer =>
      rw [hanswer] at hsecond
      have hsame : answer = classified := by
        cases classified <;> cases answer
        · rfl
        · exact (hfirst.1 (hfinds hsecond)).elim
        · exact (hsecond.1 (Finds.reorder h helement hfirst)).elim
        · rfl
      exact .inl ⟨answer, hanswer, by rw [hsame]⟩
  · left
    unfold Gathers at hgathers ⊢
    by_cases hitems : items = []
    · have hvalues : values ≠ [] := fun hvalues => hempty ⟨hitems, hvalues⟩
      rw [if_pos hitems, if_neg hvalues] at hgathers ⊢
      exact hgathers
    · rw [if_neg hitems] at hgathers ⊢
      exact hgathers

theorem Sequence.keeps (h : p.schema.Reorders schema')
    {project project' : Json → SensitiveShape ρ → Nat → Text → Effects Decision Projected}
    (hproject : ∀ value shape shape' depth path, Reorders shape shape' →
      Keeps (p.Meets value shape) (project value shape depth path) (project' value shape' depth path))
    {value : Json} {shape : SensitiveShape ρ} {resolver : ρ} {requiredLength : Option Nat}
    {meets : Prop}
    (hitem : ∀ values element item, p.Lists value requiredLength values →
      p.schema resolver = some element → p.inherited element = some none → item ∈ values →
        p.Meets item element → meets)
    (hempty : ∀ element, p.Lists value requiredLength [] → p.schema resolver = some element →
      p.Ambiguous element → meets) (depth : Nat) (path : Text) :
    Keeps meets (p.Sequence project value shape resolver requiredLength depth path)
      ((p.withSchema schema').Sequence project' value shape resolver requiredLength depth path) := by
  rintro r n log ⟨values, hlists, element, hresolved, classification, hclass, hsequence⟩
  obtain ⟨element', hresolved', helement⟩ := h.resolved hresolved
  have hclass' := hclass
  rw [inherited_reorder h helement] at hclass'
  match classification, hsequence with
  | some .opaqueValue, hsequence =>
    exact .inl ⟨log, .refl _, values, hlists, element', hresolved', _, hclass', hsequence⟩
  | some (.kind kind), hsequence =>
    exact .inl ⟨log, .refl _, values, hlists, element', hresolved', _, hclass',
      Classified.reorder h (.same shape) hsequence⟩
  | none, ⟨items, hitems, hr⟩ =>
    -- every traversal along the other schema goes through these values
    have hother {r : Projected} {n : Nat} {log : List Decision}
        (hsequence : (p.withSchema schema').Sequence project' value shape resolver requiredLength
          depth path r n log) :
        ∃ items, (p.withSchema schema').Items
            (fun value => project' value element' (depth + 1) path) (depth + 1) values items n log ∧
          (p.withSchema schema').Gathers element' values items r := by
      obtain ⟨_, hlists', _, hresolved'', _, hclass'', hsequence⟩ := hsequence
      cases hlists.1.symm.trans hlists'.1
      cases hresolved'.symm.trans hresolved''
      cases hclass'.symm.trans hclass''
      exact hsequence
    rcases Items.keeps (fun value => hproject value element element' (depth + 1) path helement) values
      items n log hitems with ⟨log', hlog, hkept⟩ | ⟨⟨item, hmember, hmeets⟩, hnone⟩
    · rcases Gathers.keeps h helement hclass hr with hr | ⟨⟨rfl, hambiguous⟩, hnone⟩
      · exact .inl ⟨log', hlog, values, hlists, element', hresolved', none, hclass', items, hkept, hr⟩
      · refine .inr ⟨hempty element hlists hresolved hambiguous, fun r n log hsequence => ?_⟩
        obtain ⟨_, hitems, hr⟩ := hother hsequence
        cases hitems
        exact hnone r hr
    · refine .inr ⟨hitem values element item hlists hresolved hclass hmember hmeets, ?_⟩
      intro r n log hsequence
      obtain ⟨_, hitems, -⟩ := hother hsequence
      exact hnone _ _ _ hitems

/-- **Reordered tables give the same views**, or none where an ambiguous array is met. -/
theorem Evaluates.keeps (h : p.schema.Reorders schema') {fuel : Nat} (value : Json)
    (shape shape' : SensitiveShape ρ) (depth : Nat) (path : Text) (hshape : Reorders shape shape') :
    Keeps (p.Meets value shape) (p.Evaluates fuel value shape depth path)
      ((p.withSchema schema').Evaluates fuel value shape' depth path) := by
  induction fuel generalizing value shape shape' depth path with
  | zero => exact fun _ _ _ h => h.elim
  | succ fuel ih =>
    cases shape with
    | opaqueValue =>
      cases hshape
      exact Keeps.of_imp fun _ _ _ => id
    | kind kind =>
      cases hshape
      exact Keeps.of_imp fun _ _ _ => Classified.reorder h (.same _)
    | fields serialize deserialize =>
      obtain ⟨serialize', deserialize', rfl, htables⟩ := hshape.tables
      rintro r n log ⟨values, rfl, hobject⟩
      refine (keeps_object h (fun value shape shape' path hshape =>
        ih value shape shape' (depth + 1) path hshape) (htables p.direction) r n log hobject).imp
          (fun ⟨log', hlog, hobject⟩ => ⟨log', hlog, values, rfl, hobject⟩)
          fun ⟨⟨field, hfield, value, shape, hvalue, hresolved, hmeets⟩, hnone⟩ =>
            ⟨.member hfield hvalue hresolved hmeets, ?_⟩
      rintro r n log ⟨_, hvalues, hobject⟩
      cases hvalues
      exact hnone r n log hobject
    | optional resolver =>
      cases hshape
      rintro r n log ⟨inner, hresolved, classification, hclass, hevaluates⟩
      obtain ⟨inner', hresolved', hinner⟩ := h.resolved hresolved
      have hclass' := hclass
      rw [inherited_reorder h hinner] at hclass'
      match classification, hevaluates with
      | some .opaqueValue, hevaluates =>
        exact .inl ⟨log, .refl _, inner', hresolved', _, hclass', hevaluates⟩
      | some (.kind kind), hevaluates =>
        exact .inl ⟨log, .refl _, inner', hresolved', _, hclass',
          Classified.reorder h (.same _) hevaluates⟩
      | none, .inl hnull => exact .inl ⟨log, .refl _, inner', hresolved', none, hclass', .inl hnull⟩
      | none, .inr ⟨hnull, hevaluates⟩ =>
        rcases ih value inner inner' depth path hinner r n log hevaluates with
          ⟨log', hlog, hevaluates⟩ | ⟨hmeets, hnone⟩
        · exact .inl ⟨log', hlog, inner', hresolved', none, hclass', .inr ⟨hnull, hevaluates⟩⟩
        · refine .inr ⟨.inside hresolved hclass hmeets, ?_⟩
          rintro r n log ⟨_, hresolved'', _, hclass'', hevaluates⟩
          cases hresolved'.symm.trans hresolved''
          cases hclass'.symm.trans hclass''
          rcases hevaluates with ⟨hvalue, -⟩ | ⟨-, hevaluates⟩
          · exact hnull hvalue
          · exact hnone r n log hevaluates
    | sequence resolver =>
      cases hshape
      refine Sequence.keeps h ih (fun values element item hlists hresolved hclass hmember hmeets => ?_)
        (fun element hlists hresolved hambiguous => ?_) depth path
      · rw [hlists.1]
        exact .item hresolved hclass hmember hmeets
      · rw [hlists.1]
        exact .sequence hresolved hambiguous
    | fixedSequence resolver length =>
      cases hshape
      refine Sequence.keeps h ih (fun values element item hlists hresolved hclass hmember hmeets => ?_)
        (fun element hlists hresolved hambiguous => ?_) depth path
      · rw [hlists.1]
        exact .fixedItem hresolved hclass hmember hmeets
      · obtain rfl : 0 = length := of_decide_eq_true hlists.2.2
        rw [hlists.1]
        exact .fixedSequence hresolved hambiguous

end Projector

/-! ## Requests and responses -/

/-- A function of its context: it remembers nothing. -/
def Sanitizer.Contextual (sanitizer : Sanitizer) : Prop :=
  ∃ answer : SanitizationContext → Option Sanitization,
    ∀ history context, sanitizer.sanitize history context = answer context

def MethodSensitivity.Reorders (method method' : MethodSensitivity ρ) : Prop :=
  method.arguments.Perm method'.arguments ∧ method.response = method'.response

theorem replies_perm {p p' : Projector ρ} {answer : SanitizationContext → Option Sanitization}
    (h : ∀ history context, p.sanitize history context = answer context)
    (h' : ∀ history context, p'.sanitize history context = answer context)
    {log log' : List Decision} (hperm : log'.Perm log) (hreplies : Replies p.Answers [] log) :
    Replies p'.Answers [] log' := by
  have hanswers (q : Projector ρ)
      (hq : ∀ history context, q.sanitize history context = answer context) :
      q.Answers = fun _ decision => answer decision.context = some decision.answer := by
    funext history decision
    rw [Projector.Answers, hq]
  rw [hanswers p h, replies_iff_forall] at hreplies
  rw [hanswers p' h', replies_iff_forall]
  exact fun decision hdecision => hreplies decision (hperm.mem_iff.mp hdecision)

/-- A run keeps its view where its effects are kept. -/
theorem Ends.keeps {p : Projector ρ} {schema' : Schema ρ} {condition : Prop}
    {answer : SanitizationContext → Option Sanitization}
    (hanswer : ∀ history context, p.sanitize history context = answer context)
    {x x' : Projecting Projected} {effects effects' : Effects Decision Projected}
    (hkeeps : Projector.Keeps condition effects effects')
    (hx' : (p.withSchema schema').Does x' effects') {view : Json} (h : Ends p x effects view) :
    Ends (p.withSchema schema') x' effects' view ∨
      condition ∧ ∀ view, ¬ Ends (p.withSchema schema') x' effects' view := by
  obtain ⟨st, -, heffects, hreplies, hbudget, houtput⟩ := h
  rcases hkeeps _ _ _ heffects with ⟨log', hperm, hkept⟩ | ⟨hcondition, hnone⟩
  · have hreplies' : Replies (p.withSchema schema').Answers [] log' :=
      replies_perm hanswer hanswer hperm hreplies
    exact .inl ⟨⟨st.visited, log'⟩, (run_eq_ok_iff hx').mpr ⟨hkept, hreplies', hbudget⟩, hkept,
      hreplies', hbudget, houtput⟩
  · exact .inr ⟨hcondition, fun view ⟨st', _, hkept, _⟩ => hnone _ _ _ hkept⟩

section

variable {schema schema' : Schema ρ} {sensitivity sensitivity' : Option (MethodSensitivity ρ)}
  {sanitizer : Sanitizer}

/-- The arguments of the request meet an ambiguous array. -/
def argumentsMeet (schema : Schema ρ) (sensitivity : Option (MethodSensitivity ρ))
    (arguments : List (Text × Json)) (direction : ProjectionDirection) (sanitizer : Sanitizer) :
    Prop :=
  ∃ method limits, sensitivity = some method ∧ sanitizer.limits = some limits ∧
    (Projector.new schema sanitizer .arguments direction limits).MeetsMember arguments
      method.arguments

def responseMeets (schema : Schema ρ) (parse : List UInt8 → Option Json)
    (sensitivity : Option (MethodSensitivity ρ)) (bytes : List UInt8)
    (direction : Option ProjectionDirection) (sanitizer : Sanitizer) : Prop :=
  ∃ direction' shape limits value, direction = some direction' ∧
    (sensitivity.bind MethodSensitivity.response).bind schema = some shape ∧
    sanitizer.limits = some limits ∧ parse bytes = some value ∧
    (Projector.new schema sanitizer .response direction' limits).Meets value shape

theorem sanitizeArguments_keeps (h : schema.Reorders schema')
    (hmethod : Option.Rel MethodSensitivity.Reorders sensitivity sensitivity')
    (hcontext : sanitizer.Contextual) {arguments : List (Text × Json)}
    {direction : ProjectionDirection} {view : Json}
    (hview : (sanitizeArguments schema sensitivity arguments direction sanitizer).value = some view) :
    (sanitizeArguments schema' sensitivity' arguments direction sanitizer).value = some view ∨
      argumentsMeet schema sensitivity arguments direction sanitizer ∧
        (sanitizeArguments schema' sensitivity' arguments direction sanitizer).value = none := by
  obtain ⟨answer, hanswer⟩ := hcontext
  obtain ⟨method, limits, rfl, hlimits, hends⟩ := sanitizeArguments_eq_some_iff.mp hview
  obtain ⟨method', rfl, hperm, -⟩ : ∃ method', sensitivity' = some method' ∧
      method.Reorders method' := by
    cases hmethod with
    | some hmethod => exact ⟨_, rfl, hmethod⟩
  let p := Projector.new schema sanitizer .arguments direction limits
  have hkeeps : Projector.Keeps (p.MeetsMember arguments method.arguments)
      (p.EvaluatesArguments arguments method.arguments)
      ((p.withSchema schema').EvaluatesArguments arguments method'.arguments) :=
    Projector.keeps_object h (fun value shape shape' path hshape =>
      Projector.Evaluates.keeps h value shape shape' 0 path hshape) hperm
  rcases hends.keeps hanswer hkeeps (Projector.denotes_projectArguments _ _ _) with
    hends' | ⟨hmeets, hnone⟩
  · exact .inl (sanitizeArguments_eq_some_iff.mpr ⟨method', limits, rfl, hlimits, hends'⟩)
  · refine .inr ⟨⟨method, limits, rfl, hlimits, hmeets⟩, Option.eq_none_iff_forall_ne_some.mpr ?_⟩
    intro view' hview'
    obtain ⟨_, _, hmethod', hlimits', hends'⟩ := sanitizeArguments_eq_some_iff.mp hview'
    cases hmethod'
    cases hlimits.symm.trans hlimits'
    exact hnone view' hends'

theorem sanitizeResponse_keeps (h : schema.Reorders schema')
    (hmethod : Option.Rel MethodSensitivity.Reorders sensitivity sensitivity')
    (hcontext : sanitizer.Contextual) {parse : List UInt8 → Option Json} {bytes : List UInt8}
    {direction : Option ProjectionDirection} {view : Json}
    (hview : (sanitizeResponse schema parse sensitivity bytes direction sanitizer).value =
      some view) :
    (sanitizeResponse schema' parse sensitivity' bytes direction sanitizer).value = some view ∨
      responseMeets schema parse sensitivity bytes direction sanitizer ∧
        (sanitizeResponse schema' parse sensitivity' bytes direction sanitizer).value = none := by
  obtain ⟨answer, hanswer⟩ := hcontext
  obtain ⟨direction', shape, limits, value, rfl, hshape, hlimits, hbytes, hvalue, hends⟩ :=
    sanitizeResponse_eq_some_iff.mp hview
  have hresponse : sensitivity'.bind MethodSensitivity.response =
      sensitivity.bind MethodSensitivity.response := by
    cases hmethod with
    | none => rfl
    | some hmethod => exact hmethod.2.symm
  obtain ⟨shape', hshape', hreorders⟩ : ∃ shape',
      (sensitivity'.bind MethodSensitivity.response).bind schema' = some shape' ∧
        Reorders shape shape' := by
    obtain ⟨resolver, hresolver, hshape⟩ := Option.bind_eq_some_iff.mp hshape
    obtain ⟨shape', hshape', hreorders⟩ := h.resolved hshape
    exact ⟨shape', Option.bind_eq_some_iff.mpr ⟨resolver, hresponse.trans hresolver, hshape'⟩,
      hreorders⟩
  let p := Projector.new schema sanitizer .response direction' limits
  have hkeeps : Projector.Keeps (p.Meets value shape) (p.EvaluatesResponse value shape)
      ((p.withSchema schema').EvaluatesResponse value shape') := by
    rintro r n log ⟨hdepth, m, rfl, hevaluates⟩
    refine (Projector.Evaluates.keeps h value shape shape' 0 [] hreorders r m log hevaluates).imp
      (fun ⟨log', hlog, hkept⟩ => ⟨log', hlog, hdepth, m, rfl, hkept⟩)
      fun ⟨hmeets, hnone⟩ => ⟨hmeets, ?_⟩
    rintro r n log ⟨-, m, -, hkept⟩
    exact hnone r m log hkept
  rcases hends.keeps hanswer hkeeps (Projector.denotes_project _ _ _) with hends' | ⟨hmeets, hnone⟩
  · exact .inl (sanitizeResponse_eq_some_iff.mpr
      ⟨direction', shape', limits, value, rfl, hshape', hlimits, hbytes, hvalue, hends'⟩)
  · refine .inr ⟨⟨direction', shape, limits, value, rfl, hshape, hlimits, hvalue, hmeets⟩,
      Option.eq_none_iff_forall_ne_some.mpr ?_⟩
    intro view' hview'
    obtain ⟨_, _, _, _, hdirection, hshape'', hlimits', _, hvalue', hends'⟩ :=
      sanitizeResponse_eq_some_iff.mp hview'
    cases hdirection
    cases hshape'.symm.trans hshape''
    cases hlimits.symm.trans hlimits'
    cases hvalue.symm.trans hvalue'
    exact hnone view' hends'

theorem argumentsMeet_reorder (h : schema.Reorders schema')
    (hmethod : Option.Rel MethodSensitivity.Reorders sensitivity sensitivity')
    {arguments : List (Text × Json)} {direction : ProjectionDirection}
    (hmeets : argumentsMeet schema sensitivity arguments direction sanitizer) :
    argumentsMeet schema' sensitivity' arguments direction sanitizer := by
  obtain ⟨method, limits, rfl, hlimits, field, hfield, value, shape, hvalue, hshape, hmeets⟩ := hmeets
  obtain ⟨shape', hshape', hreorders⟩ := h.resolved hshape
  cases hmethod with
  | some hmethod =>
    exact ⟨_, limits, rfl, hlimits, field, hmethod.1.mem_iff.mp hfield, value, shape', hvalue, hshape',
      Projector.Meets.reorder h hmeets hreorders⟩

theorem responseMeets_reorder (h : schema.Reorders schema')
    (hmethod : Option.Rel MethodSensitivity.Reorders sensitivity sensitivity')
    {parse : List UInt8 → Option Json} {bytes : List UInt8} {direction : Option ProjectionDirection}
    (hmeets : responseMeets schema parse sensitivity bytes direction sanitizer) :
    responseMeets schema' parse sensitivity' bytes direction sanitizer := by
  obtain ⟨direction', shape, limits, value, hdirection, hshape, hlimits, hvalue, hmeets⟩ := hmeets
  obtain ⟨resolver, hresolver, hshape⟩ := Option.bind_eq_some_iff.mp hshape
  obtain ⟨shape', hshape', hreorders⟩ := h.resolved hshape
  have hresponse : sensitivity'.bind MethodSensitivity.response =
      sensitivity.bind MethodSensitivity.response := by
    cases hmethod with
    | none => rfl
    | some hmethod => exact hmethod.2.symm
  exact ⟨direction', shape', limits, value, hdirection,
    Option.bind_eq_some_iff.mpr ⟨resolver, hresponse.trans hresolver, hshape'⟩, hlimits, hvalue,
    Projector.Meets.reorder h hmeets hreorders⟩

/-- Two options that keep each other's values. -/
theorem agree_of_keep {α : Type} {o o' : Option α} {condition condition' : Prop}
    (h : ∀ a, o = some a → o' = some a ∨ condition ∧ o' = none)
    (h' : ∀ a, o' = some a → o = some a ∨ condition' ∧ o = none) (hback : condition' → condition) :
    (¬ condition → o = o') ∧ ∀ a a', o = some a → o' = some a' → a = a' := by
  constructor
  · intro hcondition
    cases o with
    | some a =>
      rcases h a rfl with hsome | ⟨hmeets, -⟩
      · exact hsome.symm
      · exact (hcondition hmeets).elim
    | none =>
      cases o' with
      | none => rfl
      | some a =>
        rcases h' a rfl with hsome | ⟨hmeets, -⟩
        · exact hsome
        · exact (hcondition (hback hmeets)).elim
  · rintro a a' rfl rfl
    rcases h a rfl with hsome | ⟨-, hnone⟩
    · exact (Option.some.inj hsome).symm
    · exact nomatch hnone

/-- **Reordered field tables give the same view**, unless the traversal meets an empty array
of ambiguous elements; and never two different ones. -/
theorem reordered_projection (h : schema.Reorders schema')
    (hmethod : Option.Rel MethodSensitivity.Reorders sensitivity sensitivity')
    (hcontext : sanitizer.Contextual) :
    (∀ arguments direction,
      let view := (sanitizeArguments schema sensitivity arguments direction sanitizer).value
      let view' := (sanitizeArguments schema' sensitivity' arguments direction sanitizer).value
      (¬ argumentsMeet schema sensitivity arguments direction sanitizer → view = view') ∧
        ∀ v v', view = some v → view' = some v' → v = v') ∧
    ∀ parse bytes direction,
      let view := (sanitizeResponse schema parse sensitivity bytes direction sanitizer).value
      let view' := (sanitizeResponse schema' parse sensitivity' bytes direction sanitizer).value
      (¬ responseMeets schema parse sensitivity bytes direction sanitizer → view = view') ∧
        ∀ v v', view = some v → view' = some v' → v = v' := by
  have hback : Option.Rel MethodSensitivity.Reorders sensitivity' sensitivity := by
    cases hmethod with
    | none => exact .none
    | some hmethod => exact .some ⟨hmethod.1.symm, hmethod.2.symm⟩
  constructor
  · intro arguments direction
    exact agree_of_keep (fun _ => sanitizeArguments_keeps h hmethod hcontext)
      (fun _ => sanitizeArguments_keeps h.symm hback hcontext) (argumentsMeet_reorder h.symm hback)
  · intro parse bytes direction
    exact agree_of_keep (fun _ => sanitizeResponse_keeps h hmethod hcontext)
      (fun _ => sanitizeResponse_keeps h.symm hback hcontext) (responseMeets_reorder h.symm hback)

end

/-! ## Where the order shows -/

inductive TreeResolver where
  | name
  | node
  | children
deriving DecidableEq

/-- A tree: each node has a public name and its children. -/
def treeSchema (fields : List (SensitiveField TreeResolver)) : Schema TreeResolver
  | .name => some (.kind .PUBLIC)
  | .node => some (.fields fields fields)
  | .children => some (.sequence .node)

def nameFirst : List (SensitiveField TreeResolver) :=
  [⟨"name".toList, .name⟩, ⟨"children".toList, .children⟩]

def childrenFirst : List (SensitiveField TreeResolver) :=
  [⟨"children".toList, .children⟩, ⟨"name".toList, .name⟩]

theorem treeSchema_reorders : (treeSchema nameFirst).Reorders (treeSchema childrenFirst) := by
  have hswap : nameFirst.Perm childrenFirst := .swap _ _ _
  intro resolver
  cases resolver with
  | name | children => exact .some (.same _)
  | node => exact .some (.fields hswap hswap)

theorem policy_contextual (policy : PolicySanitizer) : policy.toSanitizer.Contextual :=
  ⟨_, fun _ _ => rfl⟩

/-- **A leaf without children is projected in one order only**: in the other the look-ahead
goes down the children of children until the depth is used up. -/
theorem fieldOrder_shows :
    ¬ ∀ (schema schema' : Schema TreeResolver) (sensitivity : MethodSensitivity TreeResolver)
        (arguments : List (Text × Json)) (direction : ProjectionDirection) (sanitizer : Sanitizer),
      schema.Reorders schema' → sanitizer.Contextual →
        (sanitizeArguments schema (some sensitivity) arguments direction sanitizer).value =
          (sanitizeArguments schema' (some sensitivity) arguments direction sanitizer).value := by
  intro h
  have hsame := h _ _ ⟨[⟨"tree".toList, .node⟩], none⟩
    [("tree".toList, .object [("name".toList, .string "oak".toList), ("children".toList, .array [])])]
    .serialize PolicySanitizer.default.toSanitizer treeSchema_reorders (policy_contextual _)
  exact absurd (congrArg Option.isSome hsame) (by decide +kernel)

/-- A node whose children are not given is the same in either order. -/
theorem reordered_projection_name :
    (sanitizeArguments (treeSchema nameFirst) (some ⟨nameFirst, none⟩)
        [("name".toList, .string "oak".toList)] .serialize
          PolicySanitizer.default.toSanitizer).value =
      (sanitizeArguments (treeSchema childrenFirst) (some ⟨childrenFirst, none⟩)
        [("name".toList, .string "oak".toList)] .serialize
          PolicySanitizer.default.toSanitizer).value := by
  have hmethod : Option.Rel MethodSensitivity.Reorders (some ⟨nameFirst, none⟩)
      (some ⟨childrenFirst, none⟩) := .some ⟨.swap _ _ _, rfl⟩
  refine ((reordered_projection treeSchema_reorders hmethod (policy_contextual .default)).1 _
    .serialize).1 ?_
  rintro ⟨_, _, hmethod, -, field, hfield, value, shape, hvalue, hshape, hmeets⟩
  cases hmethod
  rcases List.mem_cons.mp hfield with rfl | hfield
  · cases hshape
    cases hmeets
  · rw [List.mem_singleton] at hfield
    subst hfield
    exact nomatch hvalue

end Fusen.Projection
