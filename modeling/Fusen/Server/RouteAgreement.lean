import Fusen.Contract.Descriptor
import Fusen.Server.Routes

/-!
# Descriptors and the route table

The contract compares routes as texts, the route table by its decoded trie.
`build_fails_iff`: over the routes of accepted services the table fails exactly for two
routes with one method and one shape, so never within one service.
-/

namespace Fusen.Server

open Lib Contract

/-- The routes of the services, as the server collects them. -/
def routesOf (services : List ServiceDescriptor) : List Route :=
  services.flatMap fun d => d.methods.map fun m => ⟨d.selector.identity, m⟩

/-! ## Edges -/

/-- The edge of the trie that validation promises for a segment. -/
def segmentEdge (segment : Text) : Option Text :=
  match stripBraces segment with
  | some _ => none
  | none => (decodeRouteLiteral segment).toOption

theorem edge_of_parseSegment (codec : PercentCodec) {segment : Text} (h : IsRouteSegment segment)
    {parsed : Segment} (hparsed : parseSegment codec segment = .ok parsed) :
    parsed.edge = segmentEdge segment := by
  unfold IsRouteSegment at h
  unfold parseSegment at hparsed
  unfold segmentEdge
  cases hname : stripBraces segment with
  | some name =>
    rw [hname] at hparsed
    cases hparsed
    rfl
  | none =>
    rw [hname] at h hparsed
    obtain ⟨-, -, decoded, hdecoded⟩ := h
    simp only [decode_of_decodeRouteLiteral codec hdecoded] at hparsed
    cases hparsed
    simp only [hdecoded]
    rfl

theorem edges_of_parseTemplate (codec : PercentCodec) (op : HttpOperation)
    {template : List Segment} (h : parseTemplate codec op.path = .ok template) :
    template.map Segment.edge = op.segments.map segmentEdge := by
  have hsegments := op.route_spec.2.2.2.1
  have hall := Except.mapM_eq_ok_iff.mp h
  clear h
  rw [HttpOperation.segments] at hsegments ⊢
  generalize parts '/' op.path = segments at hsegments hall
  induction hall with
  | nil => rfl
  | cons hparsed _ ih =>
    rw [List.forall_mem_cons] at hsegments
    rw [List.map_cons, List.map_cons, edge_of_parseSegment codec hsegments.1 hparsed,
      ih hsegments.2]

theorem segmentEdge_eq_iff {s t : Text} (hs : IsRouteSegment s) (ht : IsRouteSegment t) :
    segmentEdge s = segmentEdge t ↔ SameSegment s t := by
  unfold IsRouteSegment at hs ht
  unfold segmentEdge SameSegment
  cases hsb : stripBraces s with
  | some name =>
    cases htb : stripBraces t with
    | some name' => exact iff_of_true rfl trivial
    | none =>
      rw [htb] at ht
      obtain ⟨-, -, decoded, hdecoded⟩ := ht
      simp only [hdecoded]
      exact iff_of_false nofun not_false
  | none =>
    rw [hsb] at hs
    obtain ⟨-, -, decoded, hdecoded⟩ := hs
    cases htb : stripBraces t with
    | some name' =>
      simp only [hdecoded]
      exact iff_of_false nofun not_false
    | none =>
      rw [htb] at ht
      obtain ⟨-, -, decoded', hdecoded'⟩ := ht
      simp only [hdecoded, hdecoded']
      constructor
      · intro h
        cases h
        exact ⟨decoded, rfl, rfl⟩
      · rintro ⟨_, ⟨⟩, ⟨⟩⟩
        rfl

/-! ## Agreement -/

namespace RouteTable

/-- The trie sees a clash exactly where the contract sees one route. -/
theorem clash_iff (codec : PercentCodec) (r r' : Route) :
    Clash codec r r' ↔ SameRoute r.operation r'.operation := by
  obtain ⟨template, htemplate⟩ := parseTemplate_isOk codec r.operation
  obtain ⟨template', htemplate'⟩ := parseTemplate_isOk codec r'.operation
  have hshape : template.map Segment.edge = template'.map Segment.edge ↔
      SameShape r.operation.path r'.operation.path := by
    rw [edges_of_parseTemplate codec r.operation htemplate,
      edges_of_parseTemplate codec r'.operation htemplate']
    exact map_eq_map_iff (fun _ _ hs ht => segmentEdge_eq_iff hs ht)
      r.operation.route_spec.2.2.2.1 r'.operation.route_spec.2.2.2.1
  unfold Clash SameRoute
  rw [← hshape]
  constructor
  · rintro ⟨hmethod, t, t', ht, ht', hedges⟩
    rw [htemplate] at ht
    rw [htemplate'] at ht'
    cases ht
    cases ht'
    exact ⟨hmethod, hedges⟩
  · rintro ⟨hmethod, hedges⟩
    exact ⟨hmethod, template, template', htemplate, htemplate', hedges⟩

theorem build_isOk_iff_pairwise (codec : PercentCodec) (routes : List Route) :
    (∃ table, build codec routes = .ok table) ↔
      routes.Pairwise fun r r' => ¬ SameRoute r.operation r'.operation := by
  have hparse : ∀ r ∈ routes, ∃ template, parseTemplate codec r.operation.path = .ok template :=
    fun r _ => parseTemplate_isOk codec r.operation
  rw [build_isOk_iff, and_iff_right hparse]
  simp only [clash_iff]

theorem build_service (codec : PercentCodec) (d : ServiceDescriptor) :
    ∃ table, build codec (routesOf [d]) = .ok table := by
  have hdistinct := ((validateMethods_ok_iff d.methods).mp d.valid).2.2.2
  rw [build_isOk_iff_pairwise, routesOf, List.flatMap_singleton, List.pairwise_map]
  exact hdistinct

/-- **The route table and the descriptors agree on duplicates.** -/
theorem build_fails_iff (codec : PercentCodec) (services : List ServiceDescriptor) :
    ((∃ reason, build codec (routesOf services) = .error reason) ↔
      ∃ r r', [r, r'].Sublist (routesOf services) ∧ SameRoute r.operation r'.operation) ∧
    (∀ d : ServiceDescriptor, ∃ table, build codec (routesOf [d]) = .ok table) ∧
    ∀ op : HttpOperation, ∃ template, parseTemplate codec op.path = .ok template := by
  refine ⟨?_, build_service codec, parseTemplate_isOk codec⟩
  have hok := build_isOk_iff_pairwise codec (routesOf services)
  have hfails : (∃ reason, build codec (routesOf services) = .error reason) ↔
      ¬ ∃ table, build codec (routesOf services) = .ok table := by
    cases build codec (routesOf services) <;> simp
  rw [hfails, hok, List.pairwise_iff_forall_sublist]
  simp only [not_forall, not_not, exists_prop]

end RouteTable

end Fusen.Server
