import Fusen.Server.Arguments

/-!
# Path binding across the wire

The client substitutes percent-encoded texts into the route template; the server
splits the path it receives and decodes each segment.  `fillSegment` says what one
segment becomes, `path_of_encoding` that the substitutions, done one after another on
the whole text, amount to that.  An empty text leaves an empty segment behind, which
the server refuses: `pathRoundTrip_iff` shows that this is the only way to lose a
Path argument.
-/

namespace Fusen.Binding

open Lib Contract Wire Server

/-- The text of a Path argument, once its parameter has been passed. -/
def boundText (arguments : Arguments) (seen : List HttpParameter) (name : Text) : Option Text :=
  if name ∈ namesOf .path seen then scalarOf (arguments.value name) else none

/-- A segment of the template with the bound texts written into it. -/
def fillSegment (codec : PercentCodec) (texts : Text → Option Text) (segment : Text) : Text :=
  match (stripBraces segment).bind texts with
  | some text => codec.encode text
  | none => segment

theorem fillSegment_isPiece {codec : PercentCodec} {texts : Text → Option Text} {segment : Text}
    (h : IsRouteSegment segment) : IsPiece (fillSegment codec texts segment) := by
  unfold fillSegment
  split
  · exact .inl (codec.notMem_encode _ (by decide) (by decide))
  · exact h.isPiece

theorem mem_namesOf {source : HttpParameterSource} {ps : List HttpParameter} {name : Text} :
    name ∈ namesOf source ps ↔ ∃ p ∈ ps, p.source = source ∧ p.name = name := by
  simp [namesOf, and_assoc]

/-- One substitution: the segment of this name is filled, every other stays as it is. -/
theorem fillSegment_step {codec : PercentCodec} {arguments : Arguments} {seen : List HttpParameter}
    {p : HttpParameter} (hp : p.source = .path) (hnew : p.name ∉ namesOf .path seen) {text : Text}
    (ht : scalarOf (arguments.value p.name) = some text) {segment : Text}
    (hseg : IsRouteSegment segment) :
    (if fillSegment codec (boundText arguments seen) segment = '{' :: p.name ++ ['}'] then
        codec.encode text else fillSegment codec (boundText arguments seen) segment) =
      fillSegment codec (boundText arguments (seen ++ [p])) segment := by
  have hmem : ∀ name, name ∈ namesOf .path (seen ++ [p]) ↔ name ∈ namesOf .path seen ∨ name = p.name := by
    intro name
    simp [namesOf, hp]
  cases hs : stripBraces segment with
  | none =>
    have hne : segment ≠ '{' :: p.name ++ ['}'] := by
      rintro rfl
      rw [stripBraces_braces] at hs
      cases hs
    simp only [fillSegment, hs, Option.bind_none]
    rw [if_neg hne]
  | some name =>
    have hsegment := stripBraces_eq_some hs
    have hopen : ∀ t : Text, codec.encode t ≠ '{' :: p.name ++ ['}'] := by
      intro t he
      apply codec.notMem_encode t (c := '{') (by decide) (by decide)
      rw [he]
      simp
    by_cases hname : name = p.name
    · subst hname
      have hbefore : boundText arguments seen p.name = none := if_neg hnew
      have hafter : boundText arguments (seen ++ [p]) p.name = some text := by
        rw [boundText, if_pos ((hmem _).mpr (.inr rfl)), ht]
      simp only [fillSegment, hs, Option.bind_some, hbefore, hafter]
      rw [if_pos hsegment]
    · have hsame : boundText arguments (seen ++ [p]) name = boundText arguments seen name := by
        simp only [boundText, hmem, hname, or_false]
      simp only [fillSegment, hs, Option.bind_some, hsame]
      cases boundText arguments seen name with
      | some t => exact if_neg (hopen t)
      | none =>
        refine if_neg fun he => hname ?_
        rw [hsegment] at he
        simpa using he

/-- **The path of an encoding** is the template with every segment filled. -/
theorem path_of_loop {codec : PercentCodec} {op : HttpOperation} {arguments : Arguments}
    {explicitQuery : List Text} {explicitHeaders : List HeaderName} {s₀ s : EncodeState}
    (h : encodeParameters codec explicitQuery explicitHeaders arguments s₀ op.parameters = .ok s)
    (hpath : s₀.path = op.path) :
    s.path = joinParts '/' (op.segments.map
        (fillSegment codec (boundText arguments op.parameters))) ∧
      ∀ p ∈ op.parameters, p.source = .path → ∃ text, scalarOf (arguments.value p.name) = some text := by
  obtain ⟨hjoin, -, -, hseg, -⟩ := op.route_spec
  let I : List HttpParameter → EncodeState → Prop := fun seen s =>
    (seen.map HttpParameter.name).Nodup →
    s.path = joinParts '/' (op.segments.map (fillSegment codec (boundText arguments seen))) ∧
      ∀ p ∈ seen, p.source = .path → ∃ text, scalarOf (arguments.value p.name) = some text
  have hstep : ∀ seen s p s', I seen s →
      EncodeStep codec explicitQuery explicitHeaders s p (arguments.value p.name) s' →
        I (seen ++ [p]) s' := by
    intro seen s p s' hI hstep hnd
    rw [List.map_append, List.nodup_append] at hnd
    obtain ⟨hs, hall⟩ := hI hnd.1
    by_cases hp : p.source = .path
    · cases hstep
      case path hsrc text ht =>
        have hnew : p.name ∉ namesOf .path seen := by
          rw [mem_namesOf]
          rintro ⟨q, hq, -, he⟩
          exact hnd.2.2 q.name (List.mem_map_of_mem hq) p.name (by simp) he
        have hpieces : ∀ x ∈ op.segments.map (fillSegment codec (boundText arguments seen)),
            IsPiece x := by
          intro x hx
          obtain ⟨segment, hmem, rfl⟩ := List.mem_map.mp hx
          exact fillSegment_isPiece (hseg segment hmem)
        refine ⟨?_, ?_⟩
        · show replaceAll _ _ s.path = _
          rw [hs, replaceAll_joinParts (by decide)
            (notMem_of_isIdentityComponent p.valid (by decide)) hpieces, List.map_map]
          congr 1
          apply List.map_congr_left
          intro segment hmem
          exact fillSegment_step hp hnew ht (hseg segment hmem)
        · intro q hq hsrc
          rcases List.mem_append.mp hq with hq | hq
          · exact hall q hq hsrc
          · rw [List.mem_singleton.mp hq]
            exact ⟨text, ht⟩
      all_goals simp_all
    · have hbound : boundText arguments (seen ++ [p]) = boundText arguments seen := by
        have hnames : namesOf .path (seen ++ [p]) = namesOf .path seen := by
          simp [namesOf, List.filter_append, hp]
        funext name
        rw [boundText, hnames, boundText]
      have hsame : s'.path = s.path := by
        cases hstep <;> simp_all
      rw [hbound, hsame]
      refine ⟨hs, fun q hq hsrc => ?_⟩
      rcases List.mem_append.mp hq with hq | hq
      · exact hall q hq hsrc
      · rw [List.mem_singleton.mp hq] at hsrc
        exact absurd hsrc hp
  have hinit : I [] s₀ := by
    intro _
    refine ⟨?_, by simp⟩
    have hfill : op.segments.map (fillSegment codec (boundText arguments [])) = op.segments := by
      conv_rhs => rw [← List.map_id op.segments]
      apply List.map_congr_left
      intro segment _
      unfold fillSegment
      cases stripBraces segment <;> rfl
    rw [hfill, hjoin, hpath]
  exact encodeParameters_invariant hstep hinit h op.names_nodup

/-! ## What the server receives -/

theorem uriPath_joinQuery {path : Text} (h : '?' ∉ path) (query : List Text) :
    uriPath (joinQuery path query) = path := by
  unfold joinQuery
  split
  · exact uriPath_self h
  · exact uriPath_append h _

theorem uriQuery_joinQuery {path : Text} (h : '?' ∉ path) (query : List Text) :
    uriQuery (joinQuery path query) = if query = [] then none else some (joinText ['&'] query) := by
  unfold joinQuery
  split
  · exact uriQuery_self h
  · exact uriQuery_append h _

section Received

variable {codec : PercentCodec} {op : HttpOperation} {arguments : Arguments}

theorem slash_notMem_fillSegment {segment : Text} (h : segment ∈ op.segments) :
    '/' ∉ fillSegment codec (boundText arguments op.parameters) segment := by
  unfold fillSegment
  split
  · exact codec.notMem_encode _ (by decide) (by decide)
  · exact (mem_parts h).2

theorem query_notMem_path : '?' ∉ joinParts '/' (op.segments.map
    (fillSegment codec (boundText arguments op.parameters))) := by
  obtain ⟨hjoin, hquery, -⟩ := op.route_spec
  intro h
  rcases mem_joinParts h with h | ⟨x, hx, h⟩
  · exact absurd h (by decide)
  · obtain ⟨segment, hmem, rfl⟩ := List.mem_map.mp hx
    unfold fillSegment at h
    split at h
    · exact codec.notMem_encode _ (by decide) (by decide) h
    · apply hquery
      rw [← hjoin]
      exact mem_joinParts_of_mem hmem h

/-- **The path the server sees.** -/
theorem uriPath_of_encoding {request : RequestEncoding} {encoded : EncodedRequest}
    {explicitHeaders : List HeaderName} {s : EncodeState}
    (h : Encoding codec request encoded explicitHeaders s) :
    uriPath encoded.pathAndQuery = joinParts '/' (request.operation.segments.map
      (fillSegment codec (boundText request.arguments request.operation.parameters))) := by
  have hpath := (path_of_loop h.loop rfl).1
  rw [h.pathAndQuery, hpath]
  exact uriPath_joinQuery query_notMem_path _

/-- The text a segment of the template carries on the wire, decoded. -/
def wireText (codec : PercentCodec) (op : HttpOperation) (arguments : Arguments) (segment : Text) :
    Text :=
  match stripBraces segment with
  | some name => (boundText arguments op.parameters name).getD []
  | none => (codec.decode segment).getD []

def parsedSegment (codec : PercentCodec) (segment : Text) : Segment :=
  match stripBraces segment with
  | some name => .parameter name
  | none => .literal ((codec.decode segment).getD [])

theorem parseSegment_eq_ok {segment : Text} {parsed : Segment}
    (h : parseSegment codec segment = .ok parsed) :
    parsed = parsedSegment codec segment ∧
      (stripBraces segment = none → ∃ value, codec.decode segment = some value) := by
  unfold parseSegment at h
  unfold parsedSegment
  split at h
  · rename_i name hname
    cases h
    simp [hname]
  · rename_i hname
    split at h
    · rename_i value hvalue
      cases h
      simp [hname, hvalue]
    · cases h

theorem parseTemplate_eq_ok {template : List Segment}
    (h : parseTemplate codec op.path = .ok template) :
    template = op.segments.map (parsedSegment codec) ∧
      ∀ segment ∈ op.segments, stripBraces segment = none →
        ∃ value, codec.decode segment = some value := by
  have hall := Except.mapM_eq_ok_iff.mp h
  clear h
  unfold HttpOperation.segments
  revert hall
  generalize parts '/' op.path = raw
  intro hall
  induction hall with
  | nil => simp
  | cons hs _ ih =>
    obtain ⟨rfl, hdec⟩ := parseSegment_eq_ok hs
    obtain ⟨rfl, hrest⟩ := ih
    exact ⟨rfl, List.forall_mem_cons.mpr ⟨hdec, hrest⟩⟩

/-- Every placeholder of the route is bound once all parameters have been passed. -/
theorem boundText_of_mem (hall : ∀ p ∈ op.parameters, p.source = .path →
    ∃ text, scalarOf (arguments.value p.name) = some text) {segment name : Text}
    (hseg : segment ∈ op.segments) (hname : stripBraces segment = some name) :
    ∃ p ∈ op.parameters, p.source = .path ∧ p.name = name ∧
      ∃ text, boundText arguments op.parameters name = some text ∧
        scalarOf (arguments.value name) = some text := by
  have hmem := (op.route_spec.2.2.2.2 name).mp (List.mem_filterMap.mpr ⟨segment, hseg, hname⟩)
  obtain ⟨p, hp, hsrc, rfl⟩ := hmem
  obtain ⟨text, ht⟩ := hall p hp hsrc
  refine ⟨p, hp, hsrc, rfl, text, ?_, ht⟩
  rw [boundText, if_pos ((mem_namesOf).mpr ⟨p, hp, hsrc, rfl⟩), ht]

theorem decode_fillSegment (hall : ∀ p ∈ op.parameters, p.source = .path →
    ∃ text, scalarOf (arguments.value p.name) = some text)
    (hdec : ∀ segment ∈ op.segments, stripBraces segment = none →
      ∃ value, codec.decode segment = some value) {segment : Text} (hseg : segment ∈ op.segments) :
    codec.decode (fillSegment codec (boundText arguments op.parameters) segment) =
      some (wireText codec op arguments segment) := by
  unfold fillSegment wireText
  cases hs : stripBraces segment with
  | none =>
    obtain ⟨value, hvalue⟩ := hdec segment hseg hs
    simp [hvalue]
  | some name =>
    obtain ⟨-, -, -, -, text, hbound, -⟩ := boundText_of_mem hall hseg hs
    simp [hbound, codec.decode_encode]

theorem placeholderArguments_map (codec : PercentCodec) (op : HttpOperation) (arguments : Arguments)
    (segments : List Text) :
    placeholderArguments (segments.map (parsedSegment codec))
      (segments.map (wireText codec op arguments)) =
      (segments.filterMap stripBraces).map fun name =>
        (name, (boundText arguments op.parameters name).getD []) := by
  induction segments with
  | nil => rfl
  | cons segment segments ih =>
    unfold placeholderArguments at ih ⊢
    rw [List.map_cons, List.map_cons, List.zip_cons_cons, List.filterMap_cons, ih,
      List.filterMap_cons]
    cases hs : stripBraces segment <;> simp [parsedSegment, wireText, hs, Segment.name]

/-- Without empty texts the server sees the texts, and they match the template. -/
theorem filled_matches (hall : ∀ p ∈ op.parameters, p.source = .path →
      ∃ text, scalarOf (arguments.value p.name) = some text)
    (hne : ∀ p ∈ op.parameters, p.source = .path → scalarOf (arguments.value p.name) ≠ some []) :
    parseTemplate codec op.path = .ok (op.segments.map (parsedSegment codec)) ∧
      requestSegments codec (joinParts '/' (op.segments.map
        (fillSegment codec (boundText arguments op.parameters)))) =
          some (op.segments.map (wireText codec op arguments)) ∧
      TemplateMatches (op.segments.map (parsedSegment codec))
        (op.segments.map (wireText codec op arguments)) := by
  obtain ⟨template, htemplate⟩ := parseTemplate_isOk codec op
  obtain ⟨rfl, hdec⟩ := parseTemplate_eq_ok htemplate
  have htext : ∀ segment ∈ op.segments, ∀ name, stripBraces segment = some name →
      wireText codec op arguments segment ≠ [] := by
    intro segment hseg name hname
    obtain ⟨p, hp, hsrc, rfl, text, hbound, ht⟩ := boundText_of_mem hall hseg hname
    rw [wireText, hname]
    show (boundText arguments op.parameters p.name).getD [] ≠ []
    rw [hbound, Option.getD_some]
    rintro rfl
    exact hne p hp hsrc ht
  have hfill : ∀ segment ∈ op.segments,
      fillSegment codec (boundText arguments op.parameters) segment ≠ [] := by
    intro segment hseg he
    have hd := decode_fillSegment hall hdec hseg
    rw [he, codec.decode_nil, Option.some.injEq] at hd
    cases hs : stripBraces segment with
    | some name => exact htext segment hseg name hs hd.symm
    | none =>
      simp only [fillSegment, hs, Option.bind_none] at he
      exact (mem_parts hseg).1 he
  refine ⟨htemplate, ?_, ?_⟩
  · unfold requestSegments
    by_cases hnil : op.segments = []
    · simp [hnil, joinParts]
    · have hslash : ∀ x ∈ op.segments.map
          (fillSegment codec (boundText arguments op.parameters)), x ≠ [] ∧ '/' ∉ x := by
        intro x hx
        obtain ⟨segment, hseg, rfl⟩ := List.mem_map.mp hx
        exact ⟨hfill segment hseg, slash_notMem_fillSegment hseg⟩
      have hroot : joinParts '/' (op.segments.map
          (fillSegment codec (boundText arguments op.parameters))) ≠ ['/'] := by
        intro he
        have hp := parts_joinParts hslash
        rw [he] at hp
        exact hnil (List.map_eq_nil_iff.mp hp.symm)
      rw [if_neg hroot, splitOn_tail_joinParts (fun x hx => (hslash x hx).2) (by simpa using hnil),
        Option.mapM_eq_some_iff, List.forall₂_map_left_iff, List.forall₂_map_right_iff,
        List.forall₂_same]
      exact fun segment hseg => decode_fillSegment hall hdec hseg
  · unfold TemplateMatches
    rw [List.forall₂_map_left_iff, List.forall₂_map_right_iff, List.forall₂_same]
    intro segment hseg
    cases hs : stripBraces segment with
    | some name =>
      rw [parsedSegment, hs]
      exact htext segment hseg name hs
    | none =>
      rw [parsedSegment, hs, wireText, hs]
      exact rfl

/-- Without empty texts every segment is matched, and read back. -/
theorem matchHttp_of_texts {route : Route} (hop : route.operation = op) {table : RouteTable}
    (hbuild : RouteTable.build codec [route] = .ok table)
    (hall : ∀ p ∈ op.parameters, p.source = .path →
      ∃ text, scalarOf (arguments.value p.name) = some text)
    (hne : ∀ p ∈ op.parameters, p.source = .path → scalarOf (arguments.value p.name) ≠ some []) :
    table.matchHttp codec op.method (joinParts '/' (op.segments.map
      (fillSegment codec (boundText arguments op.parameters)))) = .ok ⟨route,
        op.placeholders.map fun name => (name, (boundText arguments op.parameters name).getD [])⟩ := by
  subst hop
  obtain ⟨htemplate, hrequest, hmatches⟩ := @filled_matches codec _ _ hall hne
  rw [RouteTable.matchHttp_eq_ok_iff hbuild _ (head?_joinParts _ _) hrequest]
  refine ⟨route.operation.segments.map (parsedSegment codec),
    ⟨by simp, rfl, htemplate, hmatches, ?_⟩, (placeholderArguments_map codec _ arguments _).symm⟩
  intro r' hr' _ _ _ _
  exact .inl (List.mem_singleton.mp hr')

/-- With an empty text the path is refused, or leads to another route. -/
theorem route_ne_of_empty {route : Route} (hop : route.operation = op) {routes : List Route}
    {table : RouteTable} (hbuild : RouteTable.build codec routes = .ok table) {p : HttpParameter}
    (hp : p ∈ op.parameters) (hsrc : p.source = .path)
    (ht : scalarOf (arguments.value p.name) = some []) {m : MatchedRoute}
    (hm : table.matchHttp codec op.method (joinParts '/' (op.segments.map
      (fillSegment codec (boundText arguments op.parameters)))) = .ok m) :
    m.route ∈ routes ∧ m.route ≠ route := by
  subst hop
  obtain ⟨segment, hseg, hname⟩ := List.mem_filterMap.mp
    ((route.operation.route_spec.2.2.2.2 p.name).mpr ⟨p, hp, hsrc, rfl⟩)
  have hfill : fillSegment codec (boundText arguments route.operation.parameters) segment = [] := by
    rw [fillSegment, hname]
    show (match boundText arguments route.operation.parameters p.name with
      | some text => codec.encode text
      | none => segment) = []
    rw [boundText, if_pos ((mem_namesOf).mpr ⟨p, hp, hsrc, rfl⟩), ht]
    exact codec.encode_nil
  have hempty : [] ∈ route.operation.segments.map
      (fillSegment codec (boundText arguments route.operation.parameters)) :=
    List.mem_map.mpr ⟨segment, hseg, hfill⟩
  have hslash : ∀ x ∈ route.operation.segments.map
      (fillSegment codec (boundText arguments route.operation.parameters)), '/' ∉ x := by
    intro x hx
    obtain ⟨segment, hseg, rfl⟩ := List.mem_map.mp hx
    exact slash_notMem_fillSegment hseg
  have hcanon := (nil_notMem_iff_canonical hslash (List.ne_nil_of_mem hempty)).not.mp (not_not.mpr hempty)
  generalize joinParts '/' _ = path at hm hcanon
  by_cases hroot : path = ['/']
  · -- only the root is left of the path, and the template is longer
    have hsplit : splitPath codec path = .ok [] := by
      rw [hroot]
      rfl
    rw [RouteTable.matchHttp_eq hsplit] at hm
    split at hm
    · rename_i leaf captured hfind
      cases hm
      obtain ⟨pattern, hl, hacc, -, -⟩ := WildTrie.find_sound hfind
      obtain ⟨r, hr, -, template, htemplate, hpat, hleaf⟩ :=
        (RouteTable.holds_build hbuild _ _ _).mp hl
      rw [hleaf]
      refine ⟨hr, fun he => ?_⟩
      rw [show r = route from he] at htemplate
      obtain ⟨rfl, -⟩ := parseTemplate_eq_ok htemplate
      rw [Pattern.accepts_nil_key_iff] at hacc
      rw [hacc, List.map_map, List.map_eq_nil_iff] at hpat
      rw [hpat] at hseg
      cases hseg
    · cases hm
  · have hsplit : splitPath codec path = .error notFound := by
      rw [splitPath, if_pos]
      refine ⟨hroot, ?_⟩
      by_contra hno
      rw [not_or] at hno
      exact hcanon ⟨hno.2, hno.1⟩
    simp [RouteTable.matchHttp, hsplit] at hm

/-- With an empty text the path is refused, or leads to no route. -/
theorem matchHttp_of_empty {route : Route} (hop : route.operation = op) {table : RouteTable}
    (hbuild : RouteTable.build codec [route] = .ok table) {p : HttpParameter}
    (hp : p ∈ op.parameters) (hsrc : p.source = .path)
    (ht : scalarOf (arguments.value p.name) = some []) (m : MatchedRoute) :
    table.matchHttp codec op.method (joinParts '/' (op.segments.map
      (fillSegment codec (boundText arguments op.parameters)))) ≠ .ok m := by
  intro hm
  obtain ⟨hmem, hne⟩ := route_ne_of_empty hop hbuild hp hsrc ht hm
  exact hne (List.mem_singleton.mp hmem)

end Received

/-! ## Round trip -/

/-- Every Path argument is matched as the text the client encoded. -/
def PathRoundTrip (request : RequestEncoding) (m : MatchedRoute) : Prop :=
  ∀ p ∈ request.operation.parameters, p.source = .path → ∃ text,
    scalarOf (request.arguments.value p.name) = some text ∧
      Assoc.get m.pathArguments p.name = some text

/-- **Path binding.**  The operation alone makes a table, in which the request is matched and
every Path argument read back exactly when none of them is the empty text. -/
theorem pathRoundTrip_iff {codec : PercentCodec} {request : RequestEncoding}
    {encoded : EncodedRequest} (henc : encodeJsonRequest codec request = .ok encoded)
    {route : Route} (hop : route.operation = request.operation) :
    ∃ table, RouteTable.build codec [route] = .ok table ∧
      ((∃ m, table.matchHttp codec encoded.method (uriPath encoded.pathAndQuery) = .ok m ∧
        m.route = route ∧ PathRoundTrip request m) ↔
      ∀ p ∈ request.operation.parameters, p.source = .path →
        scalarOf (request.arguments.value p.name) ≠ some []) := by
  obtain ⟨table, hbuild⟩ := RouteTable.build_singleton codec route
  refine ⟨table, hbuild, ?_⟩
  obtain ⟨explicitHeaders, s, h⟩ := encodeJsonRequest_encoding henc
  have hall := (path_of_loop h.loop rfl).2
  rw [uriPath_of_encoding h, h.method]
  constructor
  · rintro ⟨m, hm, -, -⟩ p hp hsrc ht
    exact matchHttp_of_empty hop hbuild hp hsrc ht m hm
  · intro hne
    refine ⟨_, matchHttp_of_texts hop hbuild hall hne, rfl, ?_⟩
    intro p hp hsrc
    obtain ⟨text, ht⟩ := hall p hp hsrc
    refine ⟨text, ht, ?_⟩
    have hmem := (request.operation.route_spec.2.2.2.2 p.name).mpr ⟨p, hp, hsrc, rfl⟩
    apply Assoc.get_of_mem
    · rw [List.map_map]
      simpa [Function.comp_def] using request.operation.route_spec.2.2.1
    · refine List.mem_map.mpr ⟨p.name, hmem, ?_⟩
      rw [boundText, if_pos ((mem_namesOf).mpr ⟨p, hp, hsrc, rfl⟩), ht]
      rfl

def userOperation : HttpOperation :=
  .json .get "/users/{id}" [⟨"id".toList, .path, .scalar, (rfl : true = true)⟩]
    (by decide +kernel)

def userRoute : Route := ⟨"users".toList, ⟨0, "user".toList, userOperation, by decide⟩⟩

def userRequest (id : String) : RequestEncoding where
  operation := userOperation
  arguments := [("id".toList, .string id.toList)]
  headers := .empty
  distinct := by simp [Json.DistinctKeys]

theorem pathRoundTrip_iff_user : ∃ encoded table,
    encodeJsonRequest .utf8 (userRequest "a/%{é}") = .ok encoded ∧
    RouteTable.build .utf8 [userRoute] = .ok table ∧
    ∃ m, table.matchHttp .utf8 encoded.method (uriPath encoded.pathAndQuery) = .ok m ∧
      PathRoundTrip (userRequest "a/%{é}") m := by
  have henc : ∃ encoded, encodeJsonRequest .utf8 (userRequest "a/%{é}") = .ok encoded :=
    ⟨_, rfl⟩
  obtain ⟨encoded, henc⟩ := henc
  have hop : userRoute.operation = (userRequest "a/%{é}").operation := rfl
  obtain ⟨table, hbuild, hiff⟩ := pathRoundTrip_iff henc hop
  obtain ⟨m, hm, -, hround⟩ := hiff.mpr (by
    simp [userRequest, userOperation, HttpOperation.json, Arguments.value, Assoc.get, scalarOf])
  exact ⟨encoded, table, henc, hbuild, m, hm, hround⟩

/-- The empty text is encoded, and the server does not find the route. -/
theorem pathRoundTrip_empty : ∃ encoded table,
    encodeJsonRequest .utf8 (userRequest "") = .ok encoded ∧
    encoded.pathAndQuery = "/users/".toList ∧
    RouteTable.build .utf8 [userRoute] = .ok table ∧
    table.matchHttp .utf8 encoded.method (uriPath encoded.pathAndQuery) = .error notFound :=
  ⟨_, _, rfl, rfl, rfl, rfl⟩

end Fusen.Binding
