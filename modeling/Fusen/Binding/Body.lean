import Fusen.Server.Arguments

/-!
# Body binding across the wire

The body a client sends is the argument of the Body parameter, or the object of the
BodyField arguments, sorted by name.  Given that value back, the server reads every argument as it
was: `bodyRoundTrip`.
-/

namespace Fusen.Binding

open Lib Contract Wire Server

def bodyArgument (op : HttpOperation) (arguments : Arguments) : Option Json :=
  ((op.parameters.filter fun p => p.source = .body).getLast?).map fun p => arguments.value p.name

/-- The BodyField arguments, in the order of the parameters. -/
def fieldArguments (op : HttpOperation) (arguments : Arguments) : List (Text × Json) :=
  (op.parameters.filter fun p => p.source = .bodyField).map fun p => (p.name, arguments.value p.name)

/-- The members of the object: a JSON map has its keys in order. -/
def bodyFields (op : HttpOperation) (arguments : Arguments) : List (Text × Json) :=
  SortedMap.insertAll [] (fieldArguments op arguments)

/-- The JSON value of the body; without one the body is empty. -/
def sentBody (request : RequestEncoding) : Option Json :=
  let body := bodyArgument request.operation request.arguments
  let fields := bodyFields request.operation request.arguments
  if body.isNone && fields ≠ [] then some (.object fields) else body

theorem nodup_fieldArguments (op : HttpOperation) (arguments : Arguments) :
    ((fieldArguments op arguments).map Prod.fst).Nodup := by
  unfold fieldArguments
  rw [List.map_map]
  exact op.names_nodup.sublist (List.filter_sublist.map _)

theorem bodyFields_perm (op : HttpOperation) (arguments : Arguments) :
    (bodyFields op arguments).Perm (fieldArguments op arguments) :=
  SortedMap.insertAll_perm (nodup_fieldArguments op arguments)

theorem nodup_bodyFields (op : HttpOperation) (arguments : Arguments) :
    ((bodyFields op arguments).map Prod.fst).Nodup :=
  ((bodyFields_perm op arguments).map Prod.fst).nodup_iff.mpr (nodup_fieldArguments op arguments)

/-- The body the loop collects. -/
theorem body_of_loop {codec : PercentCodec} {op : HttpOperation} {explicitQuery : List Text}
    {explicitHeaders : List HeaderName} {arguments : Arguments} {s₀ s : EncodeState}
    (h : encodeParameters codec explicitQuery explicitHeaders arguments s₀ op.parameters = .ok s)
    (hbody : s₀.body = none) (hfields : s₀.bodyFields = []) :
    s.body = bodyArgument op arguments ∧ s.bodyFields = bodyFields op arguments := by
  let I : List HttpParameter → EncodeState → Prop := fun seen s =>
    s.body = ((seen.filter fun p => p.source = .body).getLast?).map
      (fun p => arguments.value p.name) ∧
    s.bodyFields = SortedMap.insertAll [] ((seen.filter fun p => p.source = .bodyField).map
      fun p => (p.name, arguments.value p.name))
  have hstep : ∀ seen s p s', I seen s →
      EncodeStep codec explicitQuery explicitHeaders s p (arguments.value p.name) s' →
        I (seen ++ [p]) s' := by
    rintro seen s p s' ⟨hb, hf⟩ hstep
    cases hstep
    case bodyField hsrc =>
      refine ⟨?_, ?_⟩
      · simpa [hsrc] using hb
      · show SortedMap.insert p.name _ s.bodyFields = _
        simp [hsrc, hf, SortedMap.insertAll]
    case body hsrc =>
      refine ⟨?_, ?_⟩
      · simp [hsrc]
      · simpa [hsrc] using hf
    all_goals
      refine ⟨?_, ?_⟩
      · simp [*]
      · simp [*]
  exact encodeParameters_invariant hstep ⟨by simpa using hbody,
    by simpa [SortedMap.insertAll] using hfields⟩ h

theorem body_of_encoding {codec : PercentCodec} {request : RequestEncoding}
    {encoded : EncodedRequest} {explicitHeaders : List HeaderName} {s : EncodeState}
    (h : Encoding codec request encoded explicitHeaders s) :
    encoded.body = ((sentBody request).map fun v => utf8 v.print).getD [] := by
  obtain ⟨hbody, hfields⟩ := body_of_loop h.loop rfl rfl
  rw [h.body, hbody, hfields]
  rfl

/-! ## What the server reads -/

section Read

variable {request : RequestEncoding} {parts : RequestParts} {p : HttpParameter}

theorem bodyArgument_of_body {op : HttpOperation} (arguments : Arguments) (hp : p ∈ op.parameters)
    (hsrc : p.source = .body) : bodyArgument op arguments = some (arguments.value p.name) := by
  unfold bodyArgument
  cases h : (op.parameters.filter fun p => p.source = .body).getLast? with
  | none =>
    rw [List.getLast?_eq_none_iff, List.filter_eq_nil_iff] at h
    exact absurd (by simpa using hsrc) (h p hp)
  | some q =>
    obtain ⟨hq, hqs⟩ := List.mem_filter.mp (List.mem_of_getLast? h)
    rw [op.eq_of_body hp hq hsrc (by simpa using hqs)]
    rfl

theorem bodyArgument_of_bodyField {op : HttpOperation} (arguments : Arguments)
    (hp : p ∈ op.parameters) (hsrc : p.source = .bodyField) : bodyArgument op arguments = none := by
  unfold bodyArgument
  have hnil : (op.parameters.filter fun p => p.source = .body) = [] := by
    rw [List.filter_eq_nil_iff]
    intro q hq
    simpa using op.not_body_of_bodyField hp hq hsrc
  rw [hnil]
  rfl

/-- **Body binding.**  Every Body and BodyField parameter is read back as it was sent. -/
theorem bodyRoundTrip (hp : p ∈ request.operation.parameters)
    (hsrc : p.source = .body ∨ p.source = .bodyField) (hbody : parts.body = sentBody request)
    (values : List (Text × List Text)) :
    decodeParameter parts values p = .ok (request.arguments.value p.name) := by
  unfold decodeParameter
  rcases hsrc with hsrc | hsrc
  · rw [hsrc, hbody, sentBody]
    simp only
    rw [bodyArgument_of_body _ hp hsrc]
    rfl
  · have hmem : (p.name, request.arguments.value p.name) ∈
        bodyFields request.operation request.arguments :=
      (bodyFields_perm _ _).mem_iff.mpr
        (List.mem_map.mpr ⟨p, List.mem_filter.mpr ⟨hp, by simpa using hsrc⟩, rfl⟩)
    rw [hsrc, hbody, sentBody]
    simp only
    rw [bodyArgument_of_bodyField _ hp hsrc]
    simp only [Option.isNone_none, Bool.true_and, decide_eq_true_eq,
      if_pos (List.ne_nil_of_mem hmem)]
    rw [decodeBodyField]
    rw [Assoc.get_of_mem (nodup_bodyFields _ _) hmem]
    rfl

end Read

end Fusen.Binding
