import Fusen.Binding.HeaderRoundTrip

/-!
# Dispatch of an encoded request

A server holds the routes of all its services.  `path_dispatches_iff` says when the path of an
encoded request leads to the route it was encoded for: no Path argument is the empty text,
and no other route spells an argument out as a literal (`users/me` next to `users/{id}`).
-/

namespace Fusen.Binding

open Lib Contract Wire Server

/-- The decoded segments of an encoded path. -/
def wireSegments (codec : PercentCodec) (request : RequestEncoding) : List Text :=
  request.operation.segments.map (wireText codec request.operation request.arguments)

/-- What a request needs to be dispatched to its own route. -/
structure Dispatches (codec : PercentCodec) (routes : List Route) (request : RequestEncoding) :
    Prop where
  texts : ∀ p ∈ request.operation.parameters, p.source = .path →
    scalarOf (request.arguments.value p.name) ≠ some []
  /-- Routes that match the arguments as well have a placeholder where this one has a literal. -/
  unrivalled : ∀ r ∈ routes, r.operation.method = request.operation.method → ∀ template,
    parseTemplate codec r.operation.path = .ok template →
      TemplateMatches template (wireSegments codec request) →
        ¬ TemplatePrefers template (request.operation.segments.map (parsedSegment codec))

section

variable {codec : PercentCodec} {routes : List Route} {table : RouteTable}

/-- A table has one route for a method and a sequence of edges. -/
theorem route_unique (hbuild : RouteTable.build codec routes = .ok table) {r r' : Route}
    (hr : r ∈ routes) (hr' : r' ∈ routes) (hmethod : r.operation.method = r'.operation.method)
    {template template' : List Segment} (ht : parseTemplate codec r.operation.path = .ok template)
    (ht' : parseTemplate codec r'.operation.path = .ok template')
    (hedge : template.map Segment.edge = template'.map Segment.edge) : r = r' := by
  have hold := RouteTable.holds_build hbuild
  have hl := (hold _ _ _).mpr ⟨r, hr, rfl, template, ht, rfl, rfl⟩
  have hl' := (hold _ _ _).mpr ⟨r', hr', rfl, template', ht', rfl, rfl⟩
  rw [← hmethod, ← hedge, hl, Option.some.injEq] at hl'
  exact congrArg HttpRouteLeaf.route hl'

/-- A route is selected unless a matching one is preferred to it. -/
theorem selected_iff (hbuild : RouteTable.build codec routes = .ok table) {route : Route}
    (hmem : route ∈ routes) {template : List Segment} {segments : List Text}
    (ht : parseTemplate codec route.operation.path = .ok template)
    (hmatch : TemplateMatches template segments) :
    Selected codec routes route.operation.method segments route template ↔
      ∀ r ∈ routes, r.operation.method = route.operation.method → ∀ template',
        parseTemplate codec r.operation.path = .ok template' → TemplateMatches template' segments →
          ¬ TemplatePrefers template' template := by
  constructor
  · intro hsel r hr hmethod template' ht' hmatch' hpref
    rcases hsel.best r hr hmethod template' ht' hmatch' with rfl | hbest
    · rw [ht, Except.ok.injEq] at ht'
      subst ht'
      exact hpref.asymm hpref
    · exact hbest.asymm hpref
  · intro hfree
    refine ⟨hmem, rfl, ht, hmatch, fun r hr hmethod template' ht' hmatch' => ?_⟩
    rcases Pattern.eq_or_prefers (accepts_of_templateMatches hmatch)
      (accepts_of_templateMatches hmatch') with heq | hpref | hpref
    · exact .inl (route_unique hbuild hr hmem hmethod ht' ht heq.symm)
    · exact .inr hpref
    · exact absurd hpref (hfree r hr hmethod template' ht' hmatch')

variable {request : RequestEncoding} {encoded : EncodedRequest} {route : Route}

/-- **Dispatch.**  The path of an encoded request leads to its route, with the Path arguments as
they were sent, exactly when `Dispatches` holds. -/
theorem path_dispatches_iff (hbuild : RouteTable.build codec routes = .ok table)
    (hmem : route ∈ routes) (hop : route.operation = request.operation)
    (henc : encodeJsonRequest codec request = .ok encoded) {m : MatchedRoute}
    (hroute : m.route = route) :
    table.matchHttp codec encoded.method (uriPath encoded.pathAndQuery) = .ok m ↔
      Dispatches codec routes request ∧ m.pathArguments = request.operation.placeholders.map
        fun name => (name, (boundText request.arguments request.operation.parameters name).getD []) := by
  obtain ⟨explicitHeaders, s, h⟩ := encodeJsonRequest_encoding henc
  have hall := (path_of_loop h.loop rfl).2
  rw [uriPath_of_encoding h, h.method]
  by_cases htexts : ∀ p ∈ request.operation.parameters, p.source = .path →
      scalarOf (request.arguments.value p.name) ≠ some []
  · obtain ⟨ht, hseg, hmatch⟩ := @filled_matches codec _ _ hall htexts
    rw [RouteTable.matchHttp_eq_ok_iff hbuild _ (head?_joinParts _ _) hseg, hroute]
    have hsel := selected_iff hbuild hmem (hop ▸ ht) hmatch
    rw [hop] at hsel
    have hargs : placeholderArguments (request.operation.segments.map (parsedSegment codec))
        (request.operation.segments.map (wireText codec request.operation request.arguments)) = _ :=
      placeholderArguments_map codec request.operation request.arguments _
    constructor
    · rintro ⟨template, hs, hpath⟩
      have heq := hs.parsed
      rw [hop, ht, Except.ok.injEq] at heq
      subst heq
      exact ⟨⟨htexts, hsel.mp hs⟩, hpath.trans hargs⟩
    · rintro ⟨hd, hpath⟩
      exact ⟨_, hsel.mpr hd.unrivalled, hpath.trans hargs.symm⟩
  · constructor
    · intro hm
      simp only [not_forall, not_not] at htexts
      obtain ⟨p, hp, hsrc, hempty⟩ := htexts
      exact absurd hroute (route_ne_of_empty hop hbuild hp hsrc hempty hm).2
    · rintro ⟨hd, -⟩
      exact absurd hd.texts htexts

end

end Fusen.Binding
