import Fusen.Projection.Semantics

/-!
# Projections stay within their limits

A view that is not omitted is put together, at the depth of the value it comes from, of
what the sanitizer decided; what it reveals or replaces is small enough, not too deep and
of at most `max_nodes` parts (`Tally`); and no node the traversal reaches violates
anything (`Sound`).  With `settles_project` this is `projected_within_limits`.
-/

namespace Fusen.Projection

open Lib Metered

/-! ## What a view shows -/

namespace Decision

def kept (decision : Decision) : Bool :=
  match decision.answer with
  | .omitted => false
  | .redact | .reveal | .replace _ => true

/-- The parts of the value that is revealed, or that replaces it. -/
def shown (decision : Decision) : List (Nat × Json) :=
  match decision.answer with
  | .reveal => parts decision.depth decision.context.value
  | .replace replacement => parts decision.depth replacement
  | .omitted | .redact => []

end Decision

mutual

/-- The view, at the depth of its root, is put together of the outcomes of the decisions. -/
inductive Shows : Nat → Json → List Decision → Prop
  | decided {decision : Decision} {view : Json} (outcome : decision.outcome = .value view) :
      Shows decision.depth view [decision]
  | array {depth : Nat} {items : List Json} {decisions : List Decision}
      (shows : ShowsAll (depth + 1) items decisions) : Shows depth (.array items) decisions
  | object {depth : Nat} {members : List (Text × Json)} {decisions : List Decision}
      (shows : ShowsAll (depth + 1) (members.map Prod.snd) decisions) :
      Shows depth (.object members) decisions

inductive ShowsAll : Nat → List Json → List Decision → Prop
  | nil {depth : Nat} : ShowsAll depth [] []
  | cons {depth : Nat} {view : Json} {views : List Json} {decisions decisions' : List Decision}
      (first : Shows depth view decisions) (rest : ShowsAll depth views decisions') :
      ShowsAll depth (view :: views) (decisions ++ decisions')

end

namespace ShowsAll

variable {depth : Nat} {views views' : List Json} {decisions decisions' : List Decision}

theorem singleton {view : Json} (h : Shows depth view decisions) :
    ShowsAll depth [view] decisions := by
  have hcons := cons h nil
  rwa [List.append_nil] at hcons

theorem append (h : ShowsAll depth views decisions) (h' : ShowsAll depth views' decisions') :
    ShowsAll depth (views ++ views') (decisions ++ decisions') := by
  induction views generalizing decisions with
  | nil =>
    cases h
    exact h'
  | cons view views ih =>
    cases h with
    | cons first rest =>
      rw [List.append_assoc]
      exact .cons first (ih rest)

theorem perm (hperm : views.Perm views') (h : ShowsAll depth views decisions) :
    ∃ decisions', decisions'.Perm decisions ∧ ShowsAll depth views' decisions' := by
  induction hperm generalizing decisions with
  | nil => exact ⟨decisions, .refl _, h⟩
  | cons view _ ih =>
    cases h with
    | cons first rest =>
      obtain ⟨_, hdecisions, hrest⟩ := ih rest
      exact ⟨_, hdecisions.append_left _, .cons first hrest⟩
  | swap view view' views =>
    cases h with
    | cons first rest =>
      cases rest with
      | cons second rest =>
        refine ⟨_, ?_, .cons second (.cons first rest)⟩
        rw [← List.append_assoc, ← List.append_assoc]
        exact List.perm_append_comm.append_right _
  | trans _ _ ih ih' =>
    obtain ⟨_, hdecisions, h⟩ := ih h
    obtain ⟨_, hdecisions', h⟩ := ih' h
    exact ⟨_, hdecisions'.trans hdecisions, h⟩

end ShowsAll

/-! ## The tally of a traversal -/

/-- The views show what was decided, in at most `nodes` parts, each of them allowed. -/
structure Tally (limits : ProjectionLimits) (depth : Nat) (views : List Json) (nodes : Nat)
    (log : List Decision) : Prop where
  shows : ∃ decisions, decisions.Perm (log.filter Decision.kept) ∧ ShowsAll depth views decisions
  nodes_le : (log.flatMap Decision.shown).length ≤ nodes
  allowed : ∀ part ∈ log.flatMap Decision.shown, limits.Allows part

namespace Tally

variable {limits : ProjectionLimits} {depth nodes nodes' : Nat} {views views' : List Json}
  {log log' : List Decision}

theorem nil : Tally limits depth [] nodes [] :=
  ⟨⟨[], .refl _, .nil⟩, Nat.zero_le _, nofun⟩

theorem mono (h : Tally limits depth views nodes log) (hle : nodes ≤ nodes') :
    Tally limits depth views nodes' log :=
  ⟨h.shows, h.nodes_le.trans hle, h.allowed⟩

theorem append (h : Tally limits depth views nodes log)
    (h' : Tally limits depth views' nodes' log') :
    Tally limits depth (views ++ views') (nodes + nodes') (log ++ log') := by
  obtain ⟨decisions, hperm, hshows⟩ := h.shows
  obtain ⟨decisions', hperm', hshows'⟩ := h'.shows
  refine ⟨⟨_, ?_, hshows.append hshows'⟩, ?_, ?_⟩
  · rw [List.filter_append]
    exact hperm.append hperm'
  · rw [List.flatMap_append, List.length_append]
    exact Nat.add_le_add h.nodes_le h'.nodes_le
  · rw [List.flatMap_append]
    exact List.forall_mem_append.mpr ⟨h.allowed, h'.allowed⟩

theorem perm (h : Tally limits depth views nodes log) (hperm : views.Perm views') :
    Tally limits depth views' nodes log := by
  obtain ⟨decisions, hdecisions, hshows⟩ := h.shows
  obtain ⟨decisions', hdecisions', hshows'⟩ := hshows.perm hperm
  exact ⟨⟨decisions', hdecisions'.trans hdecisions, hshows'⟩, h.nodes_le, h.allowed⟩

theorem array {items : List Json} (h : Tally limits (depth + 1) items nodes log) :
    Tally limits depth [.array items] nodes log := by
  obtain ⟨decisions, hdecisions, hshows⟩ := h.shows
  exact ⟨⟨decisions, hdecisions, .singleton (.array hshows)⟩, h.nodes_le, h.allowed⟩

theorem object {members : List (Text × Json)}
    (h : Tally limits (depth + 1) (members.map Prod.snd) nodes log) :
    Tally limits depth [.object members] nodes log := by
  obtain ⟨decisions, hdecisions, hshows⟩ := h.shows
  exact ⟨⟨decisions, hdecisions, .singleton (.object hshows)⟩, h.nodes_le, h.allowed⟩

/-- Where nothing is shown the depth does not matter. -/
theorem empty {depth' : Nat} (h : Tally limits depth [] nodes log) :
    Tally limits depth' [] nodes log := by
  obtain ⟨decisions, hdecisions, hshows⟩ := h.shows
  cases hshows
  exact ⟨⟨[], hdecisions, .nil⟩, h.nodes_le, h.allowed⟩

end Tally

namespace Projector

variable {ρ : Type} {p : Projector ρ} {depth n : Nat} {log : List Decision} {r : Projected}

theorem Classified.tally {value : Json} {shape : SensitiveShape ρ} {kind : SensitivityKind}
    {path : Text} (hdepth : depth ≤ p.limits.maxDepth)
    (h : p.Classified value shape kind depth path r n log) :
    Tally p.limits depth r.values (1 + n) log := by
  obtain ⟨⟨hfits, -⟩, m, rfl, ⟨_, depth, answer⟩, rfl, rfl, hreplaced, rfl, rfl, rfl⟩ := h
  have hvalue := hfits.parts hdepth
  have hdecided {view : Json} {decision : Decision} (h : decision.outcome = .value view) :=
    ShowsAll.singleton (.decided h)
  cases answer with
  | omitted => exact ⟨⟨[], .refl _, .nil⟩, Nat.zero_le _, nofun⟩
  | redact => exact ⟨⟨_, .refl _, hdecided rfl⟩, Nat.zero_le _, nofun⟩
  | reveal =>
    refine ⟨⟨_, .refl _, hdecided rfl⟩, ?_, ?_⟩
    · simp only [Decision.shown, parts, List.flatMap_cons, List.flatMap_nil, List.append_nil,
        List.length_cons]
      omega
    · rw [List.flatMap_singleton]
      exact hvalue
  | replace replacement =>
    refine ⟨⟨_, .refl _, hdecided rfl⟩, ?_, ?_⟩
    · rw [List.flatMap_singleton]
      show (parts depth replacement).length ≤ _ + (_ + (parts depth replacement).length)
      omega
    · rw [List.flatMap_singleton]
      exact hreplaced

/-! ## Objects and arrays -/

theorem Fields.tally {project : Json → SensitiveShape ρ → Text → Effects Decision Projected}
    (hproject : depth ≤ p.limits.maxDepth → ∀ {value shape path r n log},
      project value shape path r n log → Tally p.limits depth r.values (1 + n) log)
    {values entries : List (Text × Json)} {path : Text} {fields : List (SensitiveField ρ)}
    (h : p.Fields project values depth path fields entries n log) :
    Tally p.limits depth (entries.map Prod.snd) n log := by
  induction h with
  | nil => exact .nil
  | absent _ _ ih => exact ih
  | @present field _ _ _ r entries _ _ _ _ _ _ allowed projected _ ih =>
    have hsecond : (r.values.map (Prod.mk field.name) ++ entries).map Prod.snd =
        r.values ++ entries.map Prod.snd := by
      rw [List.map_append, List.map_map]
      exact congrArg (· ++ _) (List.map_id _)
    rw [hsecond]
    exact (hproject allowed projected).append ih

theorem Items.tally {project : Json → Effects Decision Projected}
    (hproject : depth ≤ p.limits.maxDepth → ∀ {value r n log},
      project value r n log → Tally p.limits depth r.values (1 + n) log)
    {values items : List Json} (h : p.Items project depth values items n log) :
    Tally p.limits depth items n log := by
  induction h with
  | nil => exact .nil
  | cons allowed projected _ ih => exact (hproject allowed projected).append ih

/-- The view of an object, in the order of its keys. -/
theorem Tally.ofEntries {fields : List (SensitiveField ρ)} {entries : List (Text × Json)}
    (hdistinct : (fields.map SensitiveField.name).Nodup)
    (hnames : (entries.map Prod.fst).Sublist (fields.map SensitiveField.name))
    (h : Tally p.limits (depth + 1) (entries.map Prod.snd) n log) :
    Tally p.limits depth (Projected.object entries).values n log := by
  unfold Projected.object
  split
  · rename_i hempty
    rw [hempty] at h
    exact h.empty
  · have hperm := SortedMap.insertAll_perm (hdistinct.sublist hnames)
    exact Tally.object (h.perm (hperm.map Prod.snd).symm)

theorem Gathers.tally {element : SensitiveShape ρ} {values items : List Json}
    (hitems : Tally p.limits (depth + 1) items n log) (h : p.Gathers element values items r) :
    Tally p.limits depth r.values n log := by
  unfold Gathers at h
  split at h
  · rename_i hempty
    rw [hempty] at hitems
    split at h
    · obtain ⟨classified, -, rfl⟩ := h
      cases classified with
      | false => exact hitems.empty
      | true => exact hitems.array
    · rw [h]
      exact hitems.empty
  · rw [h]
    exact hitems.array

theorem Sequence.tally {project : Json → SensitiveShape ρ → Nat → Text → Effects Decision Projected}
    (hproject : depth + 1 ≤ p.limits.maxDepth → ∀ {value shape path r n log},
      project value shape (depth + 1) path r n log →
        Tally p.limits (depth + 1) r.values (1 + n) log)
    {value : Json} {shape : SensitiveShape ρ} {resolver : ρ} {requiredLength : Option Nat}
    {path : Text} (hdepth : depth ≤ p.limits.maxDepth)
    (h : p.Sequence project value shape resolver requiredLength depth path r n log) :
    Tally p.limits depth r.values (1 + n) log := by
  obtain ⟨values, -, element, -, classification, -, h⟩ := h
  match classification, h with
  | some .opaqueValue, h =>
    obtain ⟨rfl, rfl, rfl⟩ := h
    exact .nil
  | some (.kind kind), h => exact Classified.tally hdepth h
  | none, h =>
    obtain ⟨items, hitems, hr⟩ := h
    have htally := Items.tally (fun hdepth _ _ _ _ h => hproject hdepth h) hitems
    exact (Gathers.tally htally hr).mono (Nat.le_add_left _ _)

/-- **Whatever is shown has been paid for**, one visit for each part of it. -/
theorem Evaluates.tally {fuel : Nat} {value : Json} {shape : SensitiveShape ρ} {path : Text}
    (hdepth : depth ≤ p.limits.maxDepth) (h : p.Evaluates fuel value shape depth path r n log) :
    Tally p.limits depth r.values (1 + n) log := by
  induction fuel generalizing value shape depth path r n log with
  | zero => exact h.elim
  | succ fuel ih =>
    cases shape with
    | opaqueValue =>
      obtain ⟨rfl, rfl, rfl⟩ := h
      exact .nil
    | kind kind => exact Classified.tally hdepth h
    | fields serialize deserialize =>
      obtain ⟨values, rfl, hdistinct, entries, hentries, rfl⟩ := h
      have htally := Fields.tally (fun hdepth _ _ _ _ _ _ h => ih hdepth h) hentries
      exact (Tally.ofEntries hdistinct hentries.names htally).mono (Nat.le_add_left _ _)
    | optional resolver =>
      obtain ⟨inner, -, classification, -, h⟩ := h
      match classification, h with
      | some .opaqueValue, h =>
        obtain ⟨rfl, rfl, rfl⟩ := h
        exact .nil
      | some (.kind kind), h => exact Classified.tally hdepth h
      | none, .inl ⟨_, h⟩ =>
        obtain ⟨rfl, rfl, rfl⟩ := h
        exact .nil
      | none, .inr ⟨_, h⟩ => exact ih hdepth h
    | sequence resolver => exact Sequence.tally (fun hdepth _ _ _ _ _ _ h => ih hdepth h) hdepth h
    | fixedSequence resolver length =>
      exact Sequence.tally (fun hdepth _ _ _ _ _ _ h => ih hdepth h) hdepth h

/-! ## Nothing reached violates anything -/

variable (p)

/-- The nodes a traversal comes to, with the shapes they are projected along. -/
inductive Reaches (root : Json → SensitiveShape ρ → Prop) : Json → SensitiveShape ρ → Nat → Prop
  | root {value : Json} {shape : SensitiveShape ρ} (start : root value shape) :
      Reaches root value shape 0
  | member {values : List (Text × Json)} {serialize deserialize : List (SensitiveField ρ)}
      {depth : Nat} {field : SensitiveField ρ} {value : Json} {shape : SensitiveShape ρ}
      (object : Reaches root (.object values) (.fields serialize deserialize) depth)
      (declared : field ∈ p.direction.fields serialize deserialize)
      (found : Assoc.get values field.name = some value)
      (resolved : p.schema field.resolver = some shape) : Reaches root value shape (depth + 1)
  | inside {value : Json} {resolver : ρ} {inner : SensitiveShape ρ} {depth : Nat}
      (optional : Reaches root value (.optional resolver) depth)
      (resolved : p.schema resolver = some inner) (unclassified : p.inherited inner = some none)
      (present : value ≠ .null) : Reaches root value inner depth
  | item {values : List Json} {resolver : ρ} {element : SensitiveShape ρ} {depth : Nat} {value : Json}
      (sequence : Reaches root (.array values) (.sequence resolver) depth)
      (resolved : p.schema resolver = some element)
      (unclassified : p.inherited element = some none) (listed : value ∈ values) :
      Reaches root value element (depth + 1)
  | fixedItem {values : List Json} {resolver : ρ} {element : SensitiveShape ρ} {depth length : Nat}
      {value : Json} (sequence : Reaches root (.array values) (.fixedSequence resolver length) depth)
      (resolved : p.schema resolver = some element)
      (unclassified : p.inherited element = some none) (listed : value ∈ values) :
      Reaches root value element (depth + 1)

/-- The declared names differ and those that are there have a shape. -/
def SoundFields (values : List (Text × Json)) (fields : List (SensitiveField ρ)) : Prop :=
  (fields.map SensitiveField.name).Nodup ∧ ∀ field ∈ fields,
    (Assoc.get values field.name).isSome → (p.schema field.resolver).isSome

def SoundSequence (value : Json) (shape : SensitiveShape ρ) (resolver : ρ)
    (requiredLength : Option Nat) (depth : Nat) : Prop :=
  ∃ values element classification, p.Lists value requiredLength values ∧
    p.schema resolver = some element ∧ p.inherited element = some classification ∧
      ((∃ kind, classification = some (.kind kind)) →
        p.limits.Fits depth value ∧ p.Conforms value shape) ∧
      (classification = none → values = [] →
        (p.hasClassifiedValue (p.limits.maxDepth + 1) element).isSome)

/-- The node has the form of its shape and respects every limit. -/
def Sound (value : Json) (shape : SensitiveShape ρ) (depth : Nat) : Prop :=
  depth ≤ p.limits.maxDepth ∧
    match shape with
    | .opaqueValue => True
    | .kind _ => ∀ part ∈ parts depth value, p.limits.Allows part
    | .fields serialize deserialize => ∃ values, value = .object values ∧
        p.SoundFields values (p.direction.fields serialize deserialize)
    | .optional resolver => ∃ inner classification, p.schema resolver = some inner ∧
        p.inherited inner = some classification ∧ ((∃ kind, classification = some (.kind kind)) →
          p.limits.Fits depth value ∧ p.Conforms value (.optional resolver))
    | .sequence resolver => p.SoundSequence value (.sequence resolver) resolver none depth
    | .fixedSequence resolver length =>
        p.SoundSequence value (.fixedSequence resolver length) resolver (some length) depth

/-- The traversal has been at the node and gone on. -/
def Passed (value : Json) (shape : SensitiveShape ρ) (depth : Nat) : Prop :=
  depth ≤ p.limits.maxDepth ∧ ∃ fuel path r n log, p.Evaluates fuel value shape depth path r n log

variable {p}

theorem Fields.member {project : Json → SensitiveShape ρ → Text → Effects Decision Projected}
    {values entries : List (Text × Json)} {path : Text} {fields : List (SensitiveField ρ)}
    (h : p.Fields project values depth path fields entries n log) {field : SensitiveField ρ}
    (hfield : field ∈ fields) {value : Json} (hvalue : Assoc.get values field.name = some value) :
    depth ≤ p.limits.maxDepth ∧ ∃ shape, p.schema field.resolver = some shape ∧
      ∃ path r n log, project value shape path r n log := by
  induction h with
  | nil => exact nomatch hfield
  | absent missing _ ih =>
    rcases List.mem_cons.mp hfield with rfl | hfield
    · exact nomatch missing.symm.trans hvalue
    · exact ih hfield
  | present found resolved allowed projected _ ih =>
    rcases List.mem_cons.mp hfield with rfl | hfield
    · cases found.symm.trans hvalue
      exact ⟨allowed, _, resolved, _, _, _, _, projected⟩
    · exact ih hfield

theorem Items.member {project : Json → Effects Decision Projected} {values items : List Json}
    (h : p.Items project depth values items n log) {value : Json} (hvalue : value ∈ values) :
    depth ≤ p.limits.maxDepth ∧ ∃ r n log, project value r n log := by
  induction h with
  | nil => exact nomatch hvalue
  | cons allowed projected _ ih =>
    rcases List.mem_cons.mp hvalue with rfl | hvalue
    · exact ⟨allowed, _, _, _, projected⟩
    · exact ih hvalue

theorem Sequence.member {project : Json → SensitiveShape ρ → Nat → Text → Effects Decision Projected}
    {values : List Json} {shape element : SensitiveShape ρ} {resolver : ρ}
    {requiredLength : Option Nat} {path : Text}
    (h : p.Sequence project (.array values) shape resolver requiredLength depth path r n log)
    (hresolved : p.schema resolver = some element) (hnone : p.inherited element = some none)
    {value : Json} (hvalue : value ∈ values) :
    depth + 1 ≤ p.limits.maxDepth ∧ ∃ r n log, project value element (depth + 1) path r n log := by
  obtain ⟨_, ⟨hvalues, -⟩, _, hresolved', _, hclass, h⟩ := h
  cases hvalues
  cases hresolved.symm.trans hresolved'
  cases hnone.symm.trans hclass
  obtain ⟨items, hitems, -⟩ := h
  exact hitems.member hvalue

theorem Sequence.sound {project : Json → SensitiveShape ρ → Nat → Text → Effects Decision Projected}
    {value : Json} {shape : SensitiveShape ρ} {resolver : ρ} {requiredLength : Option Nat}
    {path : Text} (h : p.Sequence project value shape resolver requiredLength depth path r n log) :
    p.SoundSequence value shape resolver requiredLength depth := by
  obtain ⟨values, hlists, element, hresolved, classification, hclass, h⟩ := h
  refine ⟨values, element, classification, hlists, hresolved, hclass, ?_, ?_⟩
  · rintro ⟨kind, rfl⟩
    exact h.1
  · rintro rfl rfl
    obtain ⟨items, hitems, hr⟩ := h
    cases hitems
    obtain ⟨classified, hclassified, -⟩ := hr
    exact Option.isSome_iff_exists.mpr ⟨classified, hclassified⟩

theorem Reaches.passed {root : Json → SensitiveShape ρ → Prop}
    (hroot : ∀ value shape, root value shape → p.Passed value shape 0) {value : Json}
    {shape : SensitiveShape ρ} (h : p.Reaches root value shape depth) :
    p.Passed value shape depth := by
  induction h with
  | root start => exact hroot _ _ start
  | member _ declared found resolved ih =>
    obtain ⟨-, fuel, path, r, n, log, h⟩ := ih
    cases fuel with
    | zero => exact h.elim
    | succ fuel =>
      obtain ⟨_, hvalues, -, entries, hentries, -⟩ := h
      cases hvalues
      obtain ⟨hdepth, _, hshape, h⟩ := hentries.member declared found
      cases resolved.symm.trans hshape
      exact ⟨hdepth, fuel, h⟩
  | inside _ resolved unclassified present ih =>
    obtain ⟨hdepth, fuel, path, r, n, log, h⟩ := ih
    cases fuel with
    | zero => exact h.elim
    | succ fuel =>
      obtain ⟨_, hinner, _, hclass, h⟩ := h
      cases resolved.symm.trans hinner
      cases unclassified.symm.trans hclass
      rcases h with ⟨hnull, -⟩ | ⟨-, h⟩
      · exact (present hnull).elim
      · exact ⟨hdepth, fuel, path, r, n, log, h⟩
  | item _ resolved unclassified listed ih | fixedItem _ resolved unclassified listed ih =>
    obtain ⟨-, fuel, path, r, n, log, h⟩ := ih
    cases fuel with
    | zero => exact h.elim
    | succ fuel =>
      obtain ⟨hdepth, h⟩ := Sequence.member h resolved unclassified listed
      exact ⟨hdepth, fuel, path, h⟩

theorem Passed.sound {value : Json} {shape : SensitiveShape ρ} (h : p.Passed value shape depth) :
    p.Sound value shape depth := by
  obtain ⟨hdepth, fuel, path, r, n, log, h⟩ := h
  refine ⟨hdepth, ?_⟩
  cases fuel with
  | zero => exact h.elim
  | succ fuel =>
    cases shape with
    | opaqueValue => exact trivial
    | kind kind => exact h.1.1.parts hdepth
    | fields serialize deserialize =>
      obtain ⟨values, rfl, hdistinct, entries, hentries, -⟩ := h
      refine ⟨values, rfl, hdistinct, fun field hfield hvalue => ?_⟩
      obtain ⟨value, hvalue⟩ := Option.isSome_iff_exists.mp hvalue
      obtain ⟨-, shape, hshape, -⟩ := hentries.member hfield hvalue
      exact Option.isSome_iff_exists.mpr ⟨shape, hshape⟩
    | optional resolver =>
      obtain ⟨inner, hinner, classification, hclass, h⟩ := h
      refine ⟨inner, classification, hinner, hclass, ?_⟩
      rintro ⟨kind, rfl⟩
      exact h.1
    | sequence resolver => exact Sequence.sound h
    | fixedSequence resolver length => exact Sequence.sound h

end Projector

/-! ## Requests and responses -/

section

variable {ρ : Type}

/-- The declared arguments that are there. -/
def argumentRoots (schema : Schema ρ) (arguments : List (Text × Json))
    (declared : List (SensitiveField ρ)) (value : Json) (shape : SensitiveShape ρ) : Prop :=
  ∃ field ∈ declared, Assoc.get arguments field.name = some value ∧
    schema field.resolver = some shape

/-- A run that ended with a view has kept to every limit; the views of the roots are at
depth zero. -/
structure WithinLimits (p : Projector ρ) (root : Json → SensitiveShape ρ → Prop) (view : Json)
    (rootViews : List Json) (st : Meter Decision) : Prop where
  output : (utf8 view.print).length ≤ p.limits.maxOutputBytes
  visited : st.visited ≤ p.limits.maxNodes
  answered : Replies p.Answers [] st.log
  tally : Tally p.limits 0 rootViews p.limits.maxNodes st.log
  sound : ∀ value shape depth, p.Reaches root value shape depth → p.Sound value shape depth

theorem withinLimits_arguments {p : Projector ρ} {arguments : List (Text × Json)}
    {declared : List (SensitiveField ρ)} {view : Json} {st : Meter Decision}
    (h : p.EvaluatesArguments arguments declared (.value view) st.visited st.log)
    (hreplies : Replies p.Answers [] st.log) (hbudget : st.visited ≤ p.budget)
    (houtput : (utf8 view.print).length ≤ p.limits.maxOutputBytes) :
    p.SoundFields arguments declared ∧ ∃ members, view = .object members ∧
      WithinLimits p (argumentRoots p.schema arguments declared) view (members.map Prod.snd) st := by
  obtain ⟨hdistinct, entries, hentries, hview⟩ := h
  have hnodes : st.visited ≤ p.limits.maxNodes := hbudget.trans (Nat.min_le_left _ _)
  have hview : view = .object (SortedMap.insertAll [] entries) := by
    unfold Projected.object at hview
    split at hview
    · cases hview
    · exact Projected.value.inj hview
  refine ⟨⟨hdistinct, fun field hfield hvalue => ?_⟩, _, hview, houtput, hnodes, hreplies, ?_, ?_⟩
  · obtain ⟨value, hvalue⟩ := Option.isSome_iff_exists.mp hvalue
    obtain ⟨-, shape, hshape, -⟩ := hentries.member hfield hvalue
    exact Option.isSome_iff_exists.mpr ⟨shape, hshape⟩
  · have htally := Projector.Fields.tally (fun hdepth _ _ _ _ _ _ h =>
      Projector.Evaluates.tally hdepth h) hentries
    have hperm := SortedMap.insertAll_perm (hdistinct.sublist hentries.names)
    exact (htally.mono hnodes).perm (hperm.map Prod.snd).symm
  · intro value shape depth hreach
    refine (hreach.passed fun value shape hroot => ?_).sound
    obtain ⟨field, hfield, hvalue, hshape⟩ := hroot
    obtain ⟨hdepth, _, hshape', path, h⟩ := hentries.member hfield hvalue
    cases hshape.symm.trans hshape'
    exact ⟨hdepth, _, path, h⟩

theorem withinLimits_response {p : Projector ρ} {value : Json} {shape : SensitiveShape ρ}
    {view : Json} {st : Meter Decision}
    (h : p.EvaluatesResponse value shape (.value view) st.visited st.log)
    (hreplies : Replies p.Answers [] st.log) (hbudget : st.visited ≤ p.budget)
    (houtput : (utf8 view.print).length ≤ p.limits.maxOutputBytes) :
    WithinLimits p (fun v s => v = value ∧ s = shape) view [view] st := by
  obtain ⟨hdepth, m, hvisited, h⟩ := h
  have hnodes : st.visited ≤ p.limits.maxNodes := hbudget.trans (Nat.min_le_left _ _)
  refine ⟨houtput, hnodes, hreplies, ?_, ?_⟩
  · exact (Projector.Evaluates.tally hdepth h).mono (hvisited ▸ hnodes)
  · intro value' shape' depth hreach
    refine (hreach.passed fun _ _ hroot => ?_).sound
    rw [hroot.1, hroot.2]
    exact ⟨hdepth, _, _, _, _, _, h⟩

/-- **Projection limits hold**: a view that is not omitted, of a request or of a response,
comes of a run that has kept to every limit, for a sanitizer that may answer anything and
remember everything; and every traversal ends, however its resolvers recurse. -/
theorem projected_within_limits (schema : Schema ρ) (sanitizer : Sanitizer) :
    (∀ sensitivity arguments direction view,
      (sanitizeArguments schema sensitivity arguments direction sanitizer).value = some view →
        ∃ method limits members st, sensitivity = some method ∧ sanitizer.limits = some limits ∧
          view = .object members ∧
          let p := Projector.new schema sanitizer .arguments direction limits
          (p.projectArguments p.projectionFuel arguments method.arguments).run start =
              .ok (.value view, st) ∧
            p.SoundFields arguments method.arguments ∧
            WithinLimits p (argumentRoots schema arguments method.arguments) view
              (members.map Prod.snd) st) ∧
    (∀ parse sensitivity bytes direction view,
      (sanitizeResponse schema parse sensitivity bytes direction sanitizer).value = some view →
        ∃ direction' shape limits value st, direction = some direction' ∧
          (sensitivity.bind MethodSensitivity.response).bind schema = some shape ∧
          sanitizer.limits = some limits ∧ bytes.length ≤ limits.maxInputBytes ∧
          parse bytes = some value ∧
          let p := Projector.new schema sanitizer .response direction' limits
          (p.project p.projectionFuel value shape 0 []).run start = .ok (.value view, st) ∧
            WithinLimits p (fun v s => v = value ∧ s = shape) view [view] st) ∧
    ∀ (p : Projector ρ) (fuel : Nat), p.projectionFuel ≤ fuel →
      (∀ arguments declared, Settles (p.projectArguments p.projectionFuel arguments declared)
        (p.projectArguments fuel arguments declared)) ∧
      ∀ value shape, Settles (p.project p.projectionFuel value shape 0 [])
        (p.project fuel value shape 0 []) := by
  refine ⟨?_, ?_, fun p fuel hfuel => ⟨?_, ?_⟩⟩
  · intro sensitivity arguments direction view h
    obtain ⟨method, limits, hmethod, hlimits, hends⟩ := sanitizeArguments_eq_some_iff.mp h
    obtain ⟨st, hrun, heffects, hreplies, hbudget, houtput⟩ := hends
    obtain ⟨hsound, members, hview, hwithin⟩ :=
      withinLimits_arguments heffects hreplies hbudget houtput
    exact ⟨method, limits, members, st, hmethod, hlimits, hview, hrun, hsound, hwithin⟩
  · intro parse sensitivity bytes direction view h
    obtain ⟨direction', shape, limits, value, hdirection, hshape, hlimits, hbytes, hvalue, hends⟩ :=
      sanitizeResponse_eq_some_iff.mp h
    obtain ⟨st, hrun, heffects, hreplies, hbudget, houtput⟩ := hends
    exact ⟨direction', shape, limits, value, st, hdirection, hshape, hlimits, hbytes, hvalue, hrun,
      withinLimits_response heffects hreplies hbudget houtput⟩
  · exact fun arguments declared => Projector.settles_projectArguments p hfuel arguments declared
  · exact fun value shape => Projector.settles_project p hfuel value shape

/-- A public argument beside one whose optional shape never ends. -/
theorem projected_within_limits_endless :
    let schema : Schema Bool := fun endless =>
      some (if endless then .optional true else .kind .PUBLIC)
    let policy := PolicySanitizer.default.toSanitizer
    let declared := [⟨"user".toList, false⟩, ⟨"next".toList, true⟩]
    let arguments := [("user".toList, Json.string "ada".toList)]
    let p := Projector.new schema policy .arguments .serialize .default
    ∃ (members : List (Text × Json)) (st : Meter Decision),
      (Json.object members).print = "\x7b\"user\":\"ada\"\x7d".toList ∧
      WithinLimits p (argumentRoots schema arguments declared) (.object members)
        (members.map Prod.snd) st := by
  intro schema policy declared arguments p
  have hprint : (sanitizeArguments schema (some ⟨declared, none⟩) arguments .serialize
      policy).value.map Json.print = some "\x7b\"user\":\"ada\"\x7d".toList := by decide +kernel
  obtain ⟨view, hview, hprint⟩ := Option.map_eq_some_iff.mp hprint
  obtain ⟨_, _, members, st, hmethod, hlimits, rfl, _, _, hwithin⟩ :=
    (projected_within_limits schema policy).1 (some ⟨declared, none⟩) arguments .serialize view hview
  cases hmethod
  cases hlimits
  exact ⟨members, st, hprint, hwithin⟩

end

end Fusen.Projection
