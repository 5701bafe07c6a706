import Fusen.Projection.Limits

/-!
# What a traversal does

`Evaluates` says, without counters and without a sanitizer, which views a value may have
along a shape, how many nodes are visited for each of them and which decisions it takes.
A traversal ends with exactly those whose visits are within the budget and whose decisions
are the sanitizer's (`denotes_projectVisited`).
-/

namespace Fusen.Projection

open Lib Metered

/-! ## Decisions -/

namespace Decision

def outcome (decision : Decision) : Projected :=
  match decision.answer with
  | .omitted => .omitted
  | .redact => .value (.string REDACTED)
  | .reveal => .value decision.context.value
  | .replace replacement => .value replacement

/-- What is validated anew: the parts of a replacement. -/
def replaced (decision : Decision) : List (Nat × Json) :=
  match decision.answer with
  | .replace replacement => parts decision.depth replacement
  | .omitted | .redact | .reveal => []

end Decision

namespace Projected

def values : Projected → List Json
  | .omitted => []
  | .value v => [v]

def object (entries : List (Text × Json)) : Projected :=
  if entries = [] then .omitted else .value (.object (SortedMap.insertAll [] entries))

theorem object_eq (entries : List (Text × Json)) :
    object entries = if SortedMap.insertAll [] entries = [] then .omitted
      else .value (.object (SortedMap.insertAll [] entries)) := by
  simp only [object, SortedMap.insertAll_eq_nil_iff]

end Projected

namespace Projector

variable {ρ : Type} (p : Projector ρ)

/-! ## Views of a value -/

def silent (projected : Projected) : Effects Decision Projected :=
  fun r n log => r = projected ∧ n = 0 ∧ log = []

def Sanitized (value : Json) (kind : SensitivityKind) (depth : Nat) (path : Text) :
    Effects Decision Projected := fun r n log =>
  ∃ decision : Decision, decision.context = ⟨p.target, path, kind, value⟩ ∧
    decision.depth = depth ∧ (∀ part ∈ decision.replaced, p.limits.Allows part) ∧
      r = decision.outcome ∧ n = decision.replaced.length ∧ log = [decision]

def Classified (value : Json) (shape : SensitiveShape ρ) (kind : SensitivityKind) (depth : Nat)
    (path : Text) : Effects Decision Projected := fun r n log =>
  (p.limits.Fits depth value ∧ p.Conforms value shape) ∧ ∃ m,
    n = (below depth value).length + m ∧ p.Sanitized value kind depth path r m log

/-- The fields of an object that are there, in the order they are declared. -/
inductive Fields (project : Json → SensitiveShape ρ → Text → Effects Decision Projected)
    (values : List (Text × Json)) (depth : Nat) (path : Text) :
    List (SensitiveField ρ) → List (Text × Json) → Nat → List Decision → Prop
  | nil : Fields project values depth path [] [] 0 []
  | absent {field fields entries n log} (missing : Assoc.get values field.name = none)
      (rest : Fields project values depth path fields entries n log) :
      Fields project values depth path (field :: fields) entries n log
  | present {field fields value shape r entries m n log log'}
      (found : Assoc.get values field.name = some value)
      (resolved : p.schema field.resolver = some shape) (allowed : depth ≤ p.limits.maxDepth)
      (projected : project value shape (pushPathSegment path field.name) r m log)
      (rest : Fields project values depth path fields entries n log') :
      Fields project values depth path (field :: fields)
        (r.values.map (Prod.mk field.name) ++ entries) (1 + m + n) (log ++ log')

/-- The items of an array. -/
inductive Items (project : Json → Effects Decision Projected) (depth : Nat) :
    List Json → List Json → Nat → List Decision → Prop
  | nil : Items project depth [] [] 0 []
  | cons {value values r items m n log log'} (allowed : depth ≤ p.limits.maxDepth)
      (projected : project value r m log) (rest : Items project depth values items n log') :
      Items project depth (value :: values) (r.values ++ items) (1 + m + n) (log ++ log')

/-- The view of an array, from the views of its items. -/
def Gathers (element : SensitiveShape ρ) (values items : List Json) (r : Projected) : Prop :=
  if items = [] then
    if values = [] then ∃ classified,
      p.hasClassifiedValue (p.limits.maxDepth + 1) element = some classified ∧
        r = if classified then .value (.array []) else .omitted
    else r = .omitted
  else r = .value (.array items)

def Sequence (project : Json → SensitiveShape ρ → Nat → Text → Effects Decision Projected)
    (value : Json) (shape : SensitiveShape ρ) (resolver : ρ) (requiredLength : Option Nat)
    (depth : Nat) (path : Text) : Effects Decision Projected := fun r n log =>
  ∃ values, p.Lists value requiredLength values ∧ ∃ element, p.schema resolver = some element ∧
    ∃ classification, p.inherited element = some classification ∧
      match classification with
      | some .opaqueValue => silent .omitted r n log
      | some (.kind kind) => p.Classified value shape kind depth path r n log
      | none => ∃ items, p.Items (fun value => project value element (depth + 1) path) (depth + 1)
          values items n log ∧ p.Gathers element values items r

def Evaluates : (fuel : Nat) → Json → SensitiveShape ρ → Nat → Text → Effects Decision Projected
  | 0, _, _, _, _ => fun _ _ _ => False
  | _ + 1, _, .opaqueValue, _, _ => silent .omitted
  | _ + 1, value, .kind kind, depth, path => p.Classified value (.kind kind) kind depth path
  | fuel + 1, value, .fields serialize deserialize, depth, path => fun r n log =>
    ∃ values, value = .object values ∧
      ((p.direction.fields serialize deserialize).map SensitiveField.name).Nodup ∧
        ∃ entries, p.Fields (fun value shape path => Evaluates fuel value shape (depth + 1) path)
          values (depth + 1) path (p.direction.fields serialize deserialize) entries n log ∧
            r = .object entries
  | fuel + 1, value, .optional resolver, depth, path => fun r n log =>
    ∃ inner, p.schema resolver = some inner ∧ ∃ classification,
      p.inherited inner = some classification ∧
        match classification with
        | some .opaqueValue => silent .omitted r n log
        | some (.kind kind) => p.Classified value (.optional resolver) kind depth path r n log
        | none => (value = .null ∧ silent .omitted r n log) ∨
            (value ≠ .null ∧ Evaluates fuel value inner depth path r n log)
  | fuel + 1, value, .sequence resolver, depth, path =>
    p.Sequence (Evaluates fuel) value (.sequence resolver) resolver none depth path
  | fuel + 1, value, .fixedSequence resolver length, depth, path =>
    p.Sequence (Evaluates fuel) value (.fixedSequence resolver length) resolver (some length) depth
      path

variable {p} in
/-- Each field adds at most one entry, under its own name. -/
theorem Fields.names {project : Json → SensitiveShape ρ → Text → Effects Decision Projected}
    {values entries : List (Text × Json)} {depth n : Nat} {log : List Decision} {path : Text}
    {fields : List (SensitiveField ρ)}
    (h : p.Fields project values depth path fields entries n log) :
    (entries.map Prod.fst).Sublist (fields.map SensitiveField.name) := by
  induction h with
  | nil => exact .slnil
  | absent _ _ ih => exact ih.cons _
  | @present field _ _ _ r _ _ _ _ _ _ _ _ _ _ ih =>
    cases r with
    | omitted => exact ih.cons _
    | value _ => exact ih.cons_cons _

/-! ## The traversal takes these steps -/

theorem denotes_silent (projected : Projected) : p.Does (pure projected) (silent projected) :=
  denotes_pure projected

theorem denotes_sanitizeClassified (value : Json) (kind : SensitivityKind) (depth : Nat)
    (path : Text) :
    p.Does (p.sanitizeClassified value kind depth path) (p.Sanitized value kind depth path) := by
  let entry (answer : Sanitization) : Decision := ⟨⟨p.target, path, kind, value⟩, depth, answer⟩
  have hanswer (answer : Sanitization) : p.Does
      (match answer with
        | .omitted => pure .omitted
        | .redact => pure (.value (.string REDACTED))
        | .reveal => pure (.value value)
        | .replace replacement => do
          p.validateValue replacement depth
          pure (.value replacement))
      (fun r n log => (∀ part ∈ (entry answer).replaced, p.limits.Allows part) ∧
        r = (entry answer).outcome ∧ n = (entry answer).replaced.length ∧ log = []) := by
    cases answer with
    | omitted | redact | reveal =>
      exact (denotes_pure _).congr fun r n log => ⟨fun h => ⟨nofun, h⟩, fun h => h.2⟩
    | replace replacement =>
      refine ((denotes_validateValue p replacement depth).afterCheck fun _ =>
        denotes_silent p (.value replacement)).congr fun r n log => and_congr_right fun _ => ?_
      constructor
      · rintro ⟨_, rfl, rfl, rfl, rfl⟩
        exact ⟨rfl, rfl, rfl⟩
      · rintro ⟨rfl, rfl, rfl⟩
        exact ⟨0, rfl, rfl, rfl, rfl⟩
  have hreply (history : List Decision) (answer : Sanitization) :
      p.Answers history (entry answer) ↔
        p.sanitize history ⟨p.target, path, kind, value⟩ = some answer := Iff.rfl
  refine (Denotes.afterReply hreply hanswer).congr fun r n log => ?_
  constructor
  · rintro ⟨answer, _, rfl, hallowed, rfl, rfl, rfl⟩
    exact ⟨entry answer, rfl, rfl, hallowed, rfl, rfl, rfl⟩
  · rintro ⟨⟨_, _, answer⟩, rfl, rfl, hallowed, rfl, rfl, rfl⟩
    exact ⟨answer, [], rfl, hallowed, rfl, rfl, rfl⟩

/-! ## Loops -/

section Loops

variable {project : Json → SensitiveShape ρ → Nat → Text → Projecting Projected}
  {effects : Json → SensitiveShape ρ → Nat → Text → Effects Decision Projected}

theorem denotes_projectItems {element : SensitiveShape ρ} {depth : Nat} {path : Text}
    (h : depth ≤ p.limits.maxDepth → ∀ value,
      p.Does (project value element depth path) (effects value element depth path))
    (values : List Json) :
    p.Does (p.projectItems project element depth path values)
      (p.Items (fun value => effects value element depth path) depth values) := by
  induction values with
  | nil =>
    refine (denotes_pure []).congr fun items n log => ⟨?_, ?_⟩
    · rintro ⟨rfl, rfl, rfl⟩
      exact .nil
    · rintro ⟨⟩
      exact ⟨rfl, rfl, rfl⟩
  | cons value values ih =>
    have hrest (r : Projected) : p.Does
        (match r with
          | .omitted => p.projectItems project element depth path values
          | .value value => do
            let projected ← p.projectItems project element depth path values
            pure (value :: projected))
        (fun items n log => ∃ rest, items = r.values ++ rest ∧
          p.Items (fun value => effects value element depth path) depth values rest n log) := by
      cases r with
      | omitted =>
        exact ih.congr fun items n log => ⟨fun h => ⟨items, rfl, h⟩, fun ⟨_, h, hitems⟩ => h ▸ hitems⟩
      | value v =>
        refine (ih.bind fun rest _ _ _ => denotes_pure (v :: rest)).congr fun items n log => ?_
        constructor
        · rintro ⟨rest, _, _, _, _, hrest, ⟨rfl, rfl, rfl⟩, rfl, rfl⟩
          exact ⟨rest, rfl, by rwa [List.append_nil]⟩
        · rintro ⟨rest, rfl, hrest⟩
          exact ⟨rest, n, log, 0, [], hrest, ⟨rfl, rfl, rfl⟩, (Nat.add_zero n).symm,
            (List.append_nil log).symm⟩
    refine ((denotes_visit p depth).afterCheck fun hdepth =>
      (h hdepth value).bind fun r _ _ _ => hrest r).congr fun items n log => ?_
    constructor
    · rintro ⟨hdepth, _, rfl, r, m, log₁, m', log₂, hr, ⟨rest, rfl, hrest⟩, rfl, rfl⟩
      rw [← Nat.add_assoc]
      exact .cons hdepth hr hrest
    · rintro ⟨⟩
      exact ⟨‹_›, _, Nat.add_assoc _ _ _, _, _, _, _, _, ‹_›, ⟨_, rfl, ‹_›⟩, rfl, rfl⟩

theorem denotes_projectFields {depth : Nat}
    (h : depth ≤ p.limits.maxDepth → ∀ value shape path,
      p.Does (project value shape depth path) (effects value shape depth path))
    (values : List (Text × Json)) (path : Text) (fields : List (SensitiveField ρ))
    (declared : List Text) (projected : List (Text × Json)) :
    p.Does (p.projectFields project values depth path fields declared projected)
      (fun out n log => ((∀ field ∈ fields, field.name ∉ declared) ∧
        (fields.map SensitiveField.name).Nodup) ∧ ∃ entries,
          p.Fields (fun value shape path => effects value shape depth path) values depth path fields
            entries n log ∧ out = SortedMap.insertAll projected entries) := by
  induction fields generalizing declared projected with
  | nil =>
    refine (denotes_pure projected).congr fun out n log => ⟨?_, ?_⟩
    · rintro ⟨rfl, rfl, rfl⟩
      exact ⟨⟨nofun, List.nodup_nil⟩, [], .nil, rfl⟩
    · rintro ⟨-, _, ⟨⟩, rfl⟩
      exact ⟨rfl, rfl, rfl⟩
  | cons field fields ih =>
    -- the names met so far grow by this field's
    have hnames : ((∀ f ∈ field :: fields, f.name ∉ declared) ∧
        ((field :: fields).map SensitiveField.name).Nodup) ↔
          field.name ∉ declared ∧ (∀ f ∈ fields, f.name ∉ field.name :: declared) ∧
            (fields.map SensitiveField.name).Nodup := by
      rw [List.forall_mem_cons, List.map_cons, List.nodup_cons]
      simp only [List.mem_map, List.mem_cons, not_or, not_exists, not_and, imp_and, forall_and]
      tauto
    unfold projectFields
    cases hvalue : Assoc.get values field.name with
    | none =>
      refine ((denotes_require _).afterCheck fun _ => ih _ _).congr fun out n log => ?_
      rw [hnames, and_assoc]
      refine and_congr_right fun _ => ?_
      constructor
      · rintro ⟨m, rfl, hdistinct, entries, hentries, rfl⟩
        exact ⟨hdistinct, entries, (Nat.zero_add m).symm ▸ .absent hvalue hentries, rfl⟩
      · rintro ⟨hdistinct, entries, hentries, rfl⟩
        cases hentries with
        | absent _ rest => exact ⟨n, (Nat.zero_add n).symm, hdistinct, entries, rest, rfl⟩
        | present found => cases hvalue.symm.trans found
    | some value =>
      have hrest (r : Projected) : p.Does
          (match r with
            | .omitted =>
              p.projectFields project values depth path fields (field.name :: declared) projected
            | .value value =>
              p.projectFields project values depth path fields (field.name :: declared)
                (SortedMap.insert field.name value projected))
          (fun out n log => ((∀ f ∈ fields, f.name ∉ field.name :: declared) ∧
            (fields.map SensitiveField.name).Nodup) ∧ ∃ rest,
              p.Fields (fun value shape path => effects value shape depth path) values depth path
                fields rest n log ∧ out = SortedMap.insertAll projected
                  (r.values.map (Prod.mk field.name) ++ rest)) := by
        cases r with
        | omitted => exact ih _ _
        | value v => exact ih _ _
      refine ((denotes_require _).afterCheck fun _ => Denotes.afterSome fun shape _ =>
        (denotes_visit p depth).afterCheck fun hdepth =>
          (h hdepth value shape _).bind fun r _ _ _ => hrest r).congr fun out n log => ?_
      rw [hnames, and_assoc]
      refine and_congr_right fun _ => ?_
      constructor
      · rintro ⟨_, rfl, shape, hshape, hdepth, _, rfl, r, m, log₁, m', log₂, hr,
          ⟨hdistinct, rest, hrest, rfl⟩, rfl, rfl⟩
        refine ⟨hdistinct, _, ?_, rfl⟩
        rw [Nat.zero_add, ← Nat.add_assoc]
        exact .present hvalue hshape hdepth hr hrest
      · rintro ⟨hdistinct, entries, hentries, rfl⟩
        cases hentries with
        | absent missing => cases hvalue.symm.trans missing
        | present found resolved allowed projected rest =>
          cases hvalue.symm.trans found
          exact ⟨_, (Nat.zero_add _).symm, _, resolved, allowed, _, Nat.add_assoc _ _ _, _, _, _, _, _,
            projected, ⟨hdistinct, _, rest, rfl⟩, rfl, rfl⟩

/-- The view of an object, and of the arguments of a request. -/
theorem denotes_projectObject {depth : Nat}
    (h : depth ≤ p.limits.maxDepth → ∀ value shape path,
      p.Does (project value shape depth path) (effects value shape depth path))
    (values : List (Text × Json)) (path : Text) (fields : List (SensitiveField ρ)) :
    p.Does (do
        let projected ← p.projectFields project values depth path fields [] []
        if projected = [] then pure Projected.omitted else pure (.value (.object projected)))
      (fun r n log => (fields.map SensitiveField.name).Nodup ∧ ∃ entries,
        p.Fields (fun value shape path => effects value shape depth path) values depth path fields
          entries n log ∧ r = Projected.object entries) := by
  have hobject (projected : List (Text × Json)) : p.Does
      (if projected = [] then pure .omitted else pure (.value (.object projected)))
      (silent (if projected = [] then .omitted else .value (.object projected))) := by
    split <;> exact denotes_silent p _
  refine ((denotes_projectFields p h values path fields [] []).bind
    fun projected _ _ _ => hobject projected).congr fun r n log => ?_
  simp only [Projected.object_eq]
  constructor
  · rintro ⟨_, m, log₁, _, _, ⟨⟨-, hdistinct⟩, entries, hentries, rfl⟩, ⟨rfl, rfl, rfl⟩, rfl, rfl⟩
    exact ⟨hdistinct, entries, by rwa [List.append_nil], rfl⟩
  · rintro ⟨hdistinct, entries, hentries, rfl⟩
    exact ⟨_, n, log, 0, [], ⟨⟨fun _ _ => List.not_mem_nil, hdistinct⟩, entries, hentries, rfl⟩,
      ⟨rfl, rfl, rfl⟩, rfl, (List.append_nil log).symm⟩

theorem denotes_gathers (element : SensitiveShape ρ) (values items : List Json) :
    p.Does
      (if items = [] then
        if values = [] then do
          if ← orFail (p.hasClassifiedValue (p.limits.maxDepth + 1) element) then
            pure (.value (.array []))
          else pure .omitted
        else pure .omitted
      else pure (.value (.array items)))
      (fun r n log => p.Gathers element values items r ∧ n = 0 ∧ log = []) := by
  unfold Gathers
  split
  · split
    · have hempty (classified : Bool) : p.Does
          (if classified then pure (.value (.array [])) else pure .omitted)
          (silent (if classified then .value (.array []) else .omitted)) := by
        cases classified with
        | false => exact denotes_silent p _
        | true => exact denotes_silent p _
      refine (Denotes.afterSome fun classified _ => hempty classified).congr fun r n log => ?_
      constructor
      · rintro ⟨classified, hclassified, hr, hn⟩
        exact ⟨⟨classified, hclassified, hr⟩, hn⟩
      · rintro ⟨⟨classified, hclassified, hr⟩, hn⟩
        exact ⟨classified, hclassified, hr, hn⟩
    · exact denotes_silent p _
  · exact denotes_silent p _

theorem denotes_projectSequence {fuel depth : Nat} {value : Json} {shape : SensitiveShape ρ}
    {resolver : ρ} {requiredLength : Option Nat} {path : Text}
    (hshape : ∀ values element, p.Lists value requiredLength values →
      p.schema resolver = some element →
        ((∀ item ∈ values, p.Conforms item element) ↔ p.Conforms value shape))
    (hfuel : ∀ element, p.schema resolver = some element →
      (∃ kind, p.inherited element = some (some (.kind kind))) → p.limits.maxDepth + 1 ≤ fuel)
    (h : depth + 1 ≤ p.limits.maxDepth → ∀ value shape path,
      p.Does (project value shape (depth + 1) path) (effects value shape (depth + 1) path)) :
    p.Does (p.projectSequence project (p.validateShapeVisited fuel) value resolver requiredLength
        depth path)
      (p.Sequence effects value shape resolver requiredLength depth path) := by
  refine Denotes.afterItems p fun values hlists => Denotes.afterSome fun element helement =>
    Denotes.afterSome fun classification hclass => ?_
  match classification with
  | some .opaqueValue => exact denotes_silent p _
  | some (.kind kind) =>
    have hfuel := hfuel element helement ⟨kind, hclass⟩
    have hvalues := denotes_validateShapes p (fun item =>
      denotes_validateShapeVisited p hfuel hclass item (depth + 1)) values
    have hfits : (∀ part ∈ belowItems (depth + 1) values, p.limits.Allows part) ↔
        p.limits.Fits depth value := by
      rw [hlists.1]
      exact ⟨fun h => ⟨hlists.2.1, h⟩, fun h => h.2⟩
    have hlength : (belowItems (depth + 1) values).length = (below depth value).length := by
      rw [hlists.1]
      rfl
    refine (hvalues.afterCheck fun _ => denotes_sanitizeClassified p value kind depth path).congr
      fun r n log => ?_
    rw [hlength, hfits, hshape values element hlists helement]
    rfl
  | none =>
    refine ((denotes_projectItems p (fun hdepth value => h hdepth value element path) values).bind
      fun items _ _ _ => denotes_gathers p element values items).congr fun r n log => ?_
    constructor
    · rintro ⟨items, m, log₁, _, _, hitems, ⟨hr, rfl, rfl⟩, rfl, rfl⟩
      exact ⟨items, by rwa [List.append_nil], hr⟩
    · rintro ⟨items, hitems, hr⟩
      exact ⟨items, n, log, 0, [], hitems, ⟨hr, rfl, rfl⟩, rfl, (List.append_nil log).symm⟩

end Loops

/-- **A traversal takes exactly the steps that `Evaluates` describes.** -/
theorem denotes_projectVisited {fuel depth : Nat} {shape : SensitiveShape ρ}
    (hdepth : depth ≤ p.limits.maxDepth) (h : p.Suffices fuel shape depth) (value : Json)
    (path : Text) :
    p.Does (p.projectVisited fuel value shape depth path)
      (p.Evaluates fuel value shape depth path) := by
  induction fuel generalizing value shape depth path with
  | zero => exact nomatch h.pos.choose_spec
  | succ fuel ih =>
    have hdeeper (hdepth : depth + 1 ≤ p.limits.maxDepth) (value : Json) (shape' : SensitiveShape ρ)
        (path : Text) := ih hdepth (h.deeper hdepth shape') value path
    cases shape with
    | opaqueValue => exact denotes_silent p _
    | kind kind =>
      refine ((denotes_validateDescendants p value depth).afterCheck fun _ =>
        denotes_sanitizeClassified p value kind depth path).congr fun r n log => ?_
      exact and_congr_left fun _ => ⟨fun h => ⟨h, .kind value kind⟩, fun h => h.1⟩
    | fields serialize deserialize =>
      have hnone (hvalue : ∀ values, value ≠ .object values) : p.Does fail
          (p.Evaluates (fuel + 1) value (.fields serialize deserialize) depth path) :=
        denotes_fail.congr fun _ _ _ => ⟨False.elim, fun ⟨values, h, _⟩ => hvalue values h⟩
      cases value with
      | object values =>
        refine (denotes_projectObject p hdeeper values path _).congr fun r n log => ?_
        constructor
        · exact fun h => ⟨values, rfl, h⟩
        · rintro ⟨_, hvalues, h⟩
          cases hvalues
          exact h
      | null | bool _ | number _ | string _ | array _ => exact hnone nofun
    | optional resolver =>
      refine Denotes.afterSome fun inner hinner => Denotes.afterSome fun classification hclass => ?_
      obtain ⟨hnone, hkind⟩ := h.inside hinner fun _ => rfl
      match classification with
      | some .opaqueValue => exact denotes_silent p _
      | some (.kind kind) =>
        have hroom : p.inheritedClassification (p.limits.maxDepth + 2) (.optional resolver) =
            some (some (.kind kind)) := Option.bind_eq_some_iff.mpr ⟨inner, hinner, hclass⟩
        exact (denotes_validateShapeVisited p (hkind ⟨kind, hclass⟩) hroom value depth).afterCheck
          fun _ => denotes_sanitizeClassified p value kind depth path
      | none =>
        have hvalue := ih hdepth (hnone hclass) value path
        cases value with
        | null =>
          exact (denotes_silent p _).congr fun r n log =>
            ⟨fun h => .inl ⟨rfl, h⟩, fun h => h.elim (fun h => h.2) fun h => (h.1 rfl).elim⟩
        | bool _ | number _ | string _ | array _ | object _ =>
          exact hvalue.congr fun r n log =>
            ⟨fun h => .inr ⟨nofun, h⟩, fun h => h.elim (fun h => nomatch h.1) fun h => h.2⟩
    | sequence resolver =>
      refine denotes_projectSequence p (fun values element hlists helement => ?_)
        (fun element helement hkind => ?_) hdeeper
      · rw [hlists.1]
        refine ⟨fun h => .sequence helement h, fun h => ?_⟩
        cases h with
        | sequence resolved conforms => exact Option.some.inj (helement.symm.trans resolved) ▸ conforms
      · have := (h.inside helement fun _ => rfl).2 hkind
        omega
    | fixedSequence resolver length =>
      refine denotes_projectSequence p (fun values element hlists helement => ?_)
        (fun element helement hkind => ?_) hdeeper
      · rw [hlists.1]
        refine ⟨fun h => .fixedSequence helement (of_decide_eq_true hlists.2.2) h, fun h => ?_⟩
        cases h with
        | fixedSequence resolved _ conforms =>
          exact Option.some.inj (helement.symm.trans resolved) ▸ conforms
      · have := (h.inside helement fun _ => rfl).2 hkind
        omega

/-! ## Requests and responses -/

/-- The declared arguments are the fields of a request, each at depth zero. -/
def EvaluatesArguments (arguments : List (Text × Json)) (declared : List (SensitiveField ρ)) :
    Effects Decision Projected := fun r n log =>
  (declared.map SensitiveField.name).Nodup ∧ ∃ entries,
    p.Fields (fun value shape path => p.Evaluates p.projectionFuel value shape 0 path) arguments 0 []
      declared entries n log ∧ r = .object entries

def EvaluatesResponse (value : Json) (shape : SensitiveShape ρ) : Effects Decision Projected :=
  fun r n log => 0 ≤ p.limits.maxDepth ∧ ∃ m,
    n = 1 + m ∧ p.Evaluates p.projectionFuel value shape 0 [] r m log

theorem denotes_projectArguments (arguments : List (Text × Json))
    (declared : List (SensitiveField ρ)) :
    p.Does (p.projectArguments p.projectionFuel arguments declared)
      (p.EvaluatesArguments arguments declared) := by
  refine denotes_projectObject p (fun hdepth value shape path => ?_) arguments [] declared
  exact denotes_projectVisited p hdepth (suffices_projectionFuel p le_rfl shape) value path

theorem denotes_project (value : Json) (shape : SensitiveShape ρ) :
    p.Does (p.project p.projectionFuel value shape 0 []) (p.EvaluatesResponse value shape) :=
  (denotes_visit p 0).afterCheck fun hdepth =>
    denotes_projectVisited p hdepth (suffices_projectionFuel p le_rfl shape) value []

end Projector

section

variable {ρ : Type} {p : Projector ρ}

/-- A run ends with the view and has kept to every budget. -/
def Ends (p : Projector ρ) (x : Projecting Projected) (effects : Effects Decision Projected)
    (view : Json) : Prop :=
  ∃ st, x.run start = .ok (.value view, st) ∧ effects (.value view) st.visited st.log ∧
    Replies p.Answers [] st.log ∧ st.visited ≤ p.budget ∧
      (utf8 view.print).length ≤ p.limits.maxOutputBytes

/-- What the run ends with is what the effects allow. -/
theorem run_eq_ok_iff {x : Projecting Projected} {effects : Effects Decision Projected}
    (hx : p.Does x effects) {view : Json} {st : Meter Decision} :
    x.run start = .ok (.value view, st) ↔ effects (.value view) st.visited st.log ∧
      Replies p.Answers [] st.log ∧ st.visited ≤ p.budget := by
  refine (hx start (Nat.zero_le _) (.value view) st).trans ⟨?_, ?_⟩
  · rintro ⟨n, log, heffects, hreplies, hbudget, rfl⟩
    exact ⟨by simpa [start] using heffects, by simpa [start] using hreplies, hbudget⟩
  · rintro ⟨heffects, hreplies, hbudget⟩
    exact ⟨st.visited, st.log, heffects, hreplies, by simpa [start] using hbudget, by simp [start]⟩

/-- **A view that is not omitted** comes of a run within every budget. -/
theorem failClosed_eq_some_iff {x : Projecting Projected} {effects : Effects Decision Projected}
    (hx : p.Does x effects) {view : Json} :
    (Run.failClosed p (x.run start)).value = some view ↔ Ends p x effects view := by
  have hfail : (Run.failClosed p (x.run start)).value = some view ↔ ∃ st,
      x.run start = .ok (.value view, st) ∧ (utf8 view.print).length ≤ p.limits.maxOutputBytes := by
    unfold Run.failClosed Projector.finish
    cases x.run start with
    | error _ => exact ⟨nofun, fun ⟨_, h, _⟩ => nomatch h⟩
    | ok result =>
      obtain ⟨projected, st⟩ := result
      cases projected with
      | omitted => exact ⟨nofun, fun ⟨_, h, _⟩ => nomatch h⟩
      | value value =>
        by_cases hlong : (utf8 value.print).length > p.limits.maxOutputBytes
        · simp only [if_pos hlong]
          refine ⟨nofun, fun ⟨_, h, hshort⟩ => ?_⟩
          cases h
          exact absurd hshort (Nat.not_le.mpr hlong)
        · simp only [if_neg hlong]
          constructor
          · intro h
            cases h
            exact ⟨st, rfl, Nat.not_lt.mp hlong⟩
          · rintro ⟨_, h, _⟩
            cases h
            rfl
  rw [hfail]
  refine exists_congr fun st => and_congr_right fun hrun => ?_
  obtain ⟨heffects, hreplies, hbudget⟩ := (run_eq_ok_iff hx).mp hrun
  exact ⟨fun h => ⟨heffects, hreplies, hbudget, h⟩, fun h => h.2.2.2⟩

/-- What an entry point projects: nothing without sensitivity or limits. -/
theorem sanitizeArguments_eq_some_iff {schema : Schema ρ}
    {sensitivity : Option (MethodSensitivity ρ)} {arguments : List (Text × Json)}
    {direction : ProjectionDirection} {sanitizer : Sanitizer} {view : Json} :
    (sanitizeArguments schema sensitivity arguments direction sanitizer).value = some view ↔
      ∃ method limits, sensitivity = some method ∧ sanitizer.limits = some limits ∧
        let p := Projector.new schema sanitizer .arguments direction limits
        Ends p (p.projectArguments p.projectionFuel arguments method.arguments)
          (p.EvaluatesArguments arguments method.arguments) view := by
  unfold sanitizeArguments
  cases sensitivity with
  | none => exact ⟨nofun, fun ⟨_, _, h, _⟩ => nomatch h⟩
  | some method =>
    cases sanitizer.limits with
    | none => exact ⟨nofun, fun ⟨_, _, _, h, _⟩ => nomatch h⟩
    | some limits =>
      refine (failClosed_eq_some_iff (Projector.denotes_projectArguments _ _ _)).trans ⟨?_, ?_⟩
      · exact fun h => ⟨method, limits, rfl, rfl, h⟩
      · rintro ⟨_, _, hmethod, hlimits, h⟩
        cases hmethod
        cases hlimits
        exact h

theorem sanitizeResponse_eq_some_iff {schema : Schema ρ} {parse : List UInt8 → Option Json}
    {sensitivity : Option (MethodSensitivity ρ)} {bytes : List UInt8}
    {direction : Option ProjectionDirection} {sanitizer : Sanitizer} {view : Json} :
    (sanitizeResponse schema parse sensitivity bytes direction sanitizer).value = some view ↔
      ∃ direction' shape limits value, direction = some direction' ∧
        (sensitivity.bind MethodSensitivity.response).bind schema = some shape ∧
        sanitizer.limits = some limits ∧ bytes.length ≤ limits.maxInputBytes ∧
        parse bytes = some value ∧
          let p := Projector.new schema sanitizer .response direction' limits
          Ends p (p.project p.projectionFuel value shape 0 []) (p.EvaluatesResponse value shape)
            view := by
  have hunseen (p : Projector ρ) (x : Projecting Projected) (value : Json) :
      ¬ Ends p x (p.EvaluatesResponse value .opaqueValue) view := by
    rintro ⟨_, _, ⟨_, _, _, h, _⟩, _⟩
    cases h
  unfold sanitizeResponse
  split
  · rename_i hshape
    refine ⟨nofun, ?_⟩
    rintro ⟨_, shape, _, _, _, hshape', _, _, _, h⟩
    cases hshape.symm.trans hshape'
    exact (hunseen _ _ _ h).elim
  · rename_i direction' shape limits _ hshape hlimits
    by_cases hlong : bytes.length > limits.maxInputBytes
    · rw [if_pos hlong]
      refine ⟨nofun, ?_⟩
      rintro ⟨_, _, _, _, _, _, hlimits', hshort, _⟩
      cases hlimits.symm.trans hlimits'
      exact absurd hshort (Nat.not_le.mpr hlong)
    · rw [if_neg hlong]
      cases hparse : parse bytes with
      | none => exact ⟨nofun, fun ⟨_, _, _, _, _, _, _, _, h, _⟩ => nomatch h⟩
      | some value =>
        refine (failClosed_eq_some_iff (Projector.denotes_project _ _ _)).trans ⟨?_, ?_⟩
        · exact fun h => ⟨_, shape, limits, value, rfl, hshape, hlimits, Nat.not_lt.mp hlong, rfl, h⟩
        · rintro ⟨_, _, _, _, hdirection, hshape', hlimits', _, hvalue, h⟩
          cases hdirection
          cases hshape.symm.trans hshape'
          cases hlimits.symm.trans hlimits'
          cases hvalue
          exact h
  · rename_i _ hnone
    refine ⟨nofun, ?_⟩
    rintro ⟨direction', shape, limits, _, rfl, hshape, hlimits, _⟩
    exact (hnone direction' shape limits rfl hshape hlimits).elim

end

end Fusen.Projection
