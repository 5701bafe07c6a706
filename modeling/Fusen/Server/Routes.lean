import Fusen.Contract.Service
import Fusen.Error
import Fusen.Lib.Percent
import Fusen.Lib.Result
import Fusen.Lib.WildTrie

/-!
# Route table (`server/routes.rs`)

`RouteTable.build` inserts every route into the trie of its method, and `matchHttp`
walks the trie with the decoded segments of a request path, backing out of a literal
edge when nothing behind it matches.  `matchHttp_selects` compares the answer with the
templates alone: it is the matching template that no other matching one is preferred
to, whatever the order of insertion.
-/

namespace Fusen.Server

open Lib Contract

structure Route where
  service : Text
  method : MethodDescriptor

def Route.operation (r : Route) : HttpOperation := r.method.http

structure HttpRouteLeaf where
  route : Route
  parameterNames : List Text

abbrev HttpRouteTrie := WildTrie Text HttpRouteLeaf

inductive Segment
  | literal (value : Text)
  | parameter (name : Text)
deriving DecidableEq

namespace Segment

/-- The edge of the trie a segment goes along. -/
def edge : Segment → Option Text
  | literal value => some value
  | parameter _ => none

def name : Segment → Option Text
  | literal _ => none
  | parameter name => some name

end Segment

structure MatchedRoute where
  route : Route
  pathArguments : List (Text × Text)

structure RouteTable where
  http : List (Method × HttpRouteTrie)

section

variable (codec : PercentCodec)

def parseSegment (segment : Text) : Except Text Segment :=
  match stripBraces segment with
  | some name => .ok (.parameter name)
  | none =>
    match codec.decode segment with
    | some value => .ok (.literal value)
    | none => .error "validated HTTP route contains invalid percent encoding".toList

def parseTemplate (path : Text) : Except Text (List Segment) :=
  (parts '/' path).mapM (parseSegment codec)

def notFound : Error :=
  .framework .notFound "route_not_found" "service invocation route was not found".toList

def decodeSegment (segment : Text) : Except Error Text :=
  match codec.decode segment with
  | some value => .ok value
  | none => .error (.framework .invalidArgument "invalid_path_encoding"
      "request path contains invalid percent encoding".toList)

def splitPath (path : Text) : Except Error (List Text) :=
  if path ≠ ['/'] ∧ (path.getLast? = some '/' ∨ ['/', '/'] <:+: path) then .error notFound
  else (parts '/' path).mapM (decodeSegment codec)

end

/-- `insert`: the parameter names met on the way are kept at the leaf. -/
def HttpRouteTrie.insert (trie : HttpRouteTrie) (segments : List Segment) (route : Route) :
    Option HttpRouteTrie :=
  WildTrie.insert (segments.map Segment.edge) ⟨route, segments.filterMap Segment.name⟩ trie

/-- `match_segments` on the vector `values` it pushes to and pops from. -/
def HttpRouteTrie.matchSegments :
    List Text → HttpRouteTrie → List Text → Option HttpRouteLeaf × List Text
  | [], trie, values => (trie.leaf, values)
  | segment :: remaining, trie, values =>
    let literal := match Assoc.get trie.literals segment with
      | some child => HttpRouteTrie.matchSegments remaining child values
      | none => (none, values)
    match literal with
    | (some leaf, values) => (some leaf, values)
    | (none, values) =>
      match trie.wildcard with
      | none => (none, values)
      | some child =>
        match HttpRouteTrie.matchSegments remaining child (values ++ [segment]) with
        | (some leaf, values) => (some leaf, values)
        | (none, values) => (none, values.dropLast)

namespace RouteTable

variable (codec : PercentCodec)

def add (table : RouteTable) (route : Route) : Except Text RouteTable :=
  match parseTemplate codec route.operation.path with
  | .error e => .error e
  | .ok segments =>
    match HttpRouteTrie.insert ((Assoc.get table.http route.operation.method).getD .empty)
        segments route with
    | some trie => .ok ⟨Assoc.upsert route.operation.method (fun _ => trie) table.http⟩
    | none => .error ("duplicate or ambiguous HTTP route ".toList ++
        methodText route.operation.method ++ [' '] ++ route.operation.path)

def addAll (table : RouteTable) : List Route → Except Text RouteTable
  | [] => .ok table
  | route :: rest =>
    match table.add codec route with
    | .error e => .error e
    | .ok table => addAll table rest

def build (routes : List Route) : Except Text RouteTable := addAll codec ⟨[]⟩ routes

def matchHttp (table : RouteTable) (method : Method) (path : Text) : Except Error MatchedRoute :=
  match splitPath codec path with
  | .error e => .error e
  | .ok segments =>
    match Assoc.get table.http method with
    | none => .error notFound
    | some trie =>
      match HttpRouteTrie.matchSegments segments trie [] with
      | (some leaf, values) => .ok ⟨leaf.route, Assoc.toMap (leaf.parameterNames.zip values)⟩
      | (none, _) => .error notFound

end RouteTable

/-! ## Backtracking -/

/-- The walk finds what the trie finds, and leaves the vector as it was when it fails. -/
theorem HttpRouteTrie.matchSegments_eq (segments : List Text) (trie : HttpRouteTrie)
    (values : List Text) : HttpRouteTrie.matchSegments segments trie values =
      match trie.find segments with
      | some (leaf, captured) => (some leaf, values ++ captured)
      | none => (none, values) := by
  induction segments generalizing trie values with
  | nil =>
    unfold matchSegments WildTrie.find
    cases trie.leaf <;> simp
  | cons segment remaining ih =>
    unfold matchSegments WildTrie.find
    have hliteral : (match Assoc.get trie.literals segment with
        | some child => matchSegments remaining child values
        | none => (none, values)) =
        match (Assoc.get trie.literals segment).bind (WildTrie.find remaining) with
        | some (leaf, captured) => (some leaf, values ++ captured)
        | none => (none, values) := by
      cases Assoc.get trie.literals segment with
      | none => rfl
      | some child => exact ih child values
    rw [hliteral]
    cases (Assoc.get trie.literals segment).bind (WildTrie.find remaining) with
    | some r => rfl
    | none =>
      cases trie.wildcard with
      | none => rfl
      | some child =>
        simp only [Option.bind_some, ih]
        cases WildTrie.find remaining child <;> simp

/-! ## What a table holds -/

/-- The leaf a route with this template has. -/
def Route.leaf (r : Route) (template : List Segment) : HttpRouteLeaf :=
  ⟨r, template.filterMap Segment.name⟩

namespace RouteTable

variable (codec : PercentCodec)

def trieOf (table : RouteTable) (method : Method) : HttpRouteTrie :=
  (Assoc.get table.http method).getD .empty

/-- The table holds exactly these routes, each under the pattern of its template. -/
def Holds (table : RouteTable) (routes : List Route) : Prop :=
  ∀ method pattern leaf, (table.trieOf method).lookup pattern = some leaf ↔
    ∃ r ∈ routes, r.operation.method = method ∧ ∃ template,
      parseTemplate codec r.operation.path = .ok template ∧ template.map Segment.edge = pattern ∧
        leaf = r.leaf template

/-- Same method, and templates that differ in placeholder names at most. -/
def Clash (r r' : Route) : Prop :=
  r.operation.method = r'.operation.method ∧ ∃ template template',
    parseTemplate codec r.operation.path = .ok template ∧
    parseTemplate codec r'.operation.path = .ok template' ∧
    template.map Segment.edge = template'.map Segment.edge

theorem Clash.symm {codec : PercentCodec} {r r' : Route} (h : Clash codec r r') :
    Clash codec r' r := by
  obtain ⟨hm, t, t', ht, ht', he⟩ := h
  exact ⟨hm.symm, t', t, ht', ht, he.symm⟩

theorem holds_empty : Holds codec ⟨[]⟩ [] := by
  intro method pattern leaf
  simp [trieOf]

theorem trieOf_upsert (table : RouteTable) (m method : Method) (trie : HttpRouteTrie) :
    trieOf ⟨Assoc.upsert m (fun _ => trie) table.http⟩ method =
      if method = m then trie else table.trieOf method := by
  unfold trieOf
  rw [Assoc.get_upsert]
  split <;> rfl

variable {codec}

theorem add_isOk_iff {table : RouteTable} {seen : List Route} (hold : Holds codec table seen)
    (r : Route) : (∃ table', table.add codec r = .ok table') ↔
      (∃ template, parseTemplate codec r.operation.path = .ok template) ∧
      ∀ s ∈ seen, ¬ Clash codec s r := by
  cases hp : parseTemplate codec r.operation.path with
  | error e => simp [add, hp]
  | ok template =>
    have hins : (∃ table', table.add codec r = .ok table') ↔
        ((table.trieOf r.operation.method).lookup (template.map Segment.edge)) = none := by
      have hinsert : HttpRouteTrie.insert (table.trieOf r.operation.method) template r =
          WildTrie.insert (template.map Segment.edge) (r.leaf template)
            (table.trieOf r.operation.method) := rfl
      rw [← WildTrie.insert_isSome_iff (template.map Segment.edge) (r.leaf template), ← hinsert,
        trieOf]
      simp only [add, hp]
      cases HttpRouteTrie.insert _ template r <;> simp
    rw [hins, Option.eq_none_iff_forall_ne_some]
    constructor
    · refine fun h => ⟨⟨template, rfl⟩, ?_⟩
      rintro s hs ⟨hm, t, t', ht, ht', he⟩
      rw [hp] at ht'
      cases ht'
      exact h (s.leaf t) ((hold _ _ _).mpr ⟨s, hs, hm, t, ht, he, rfl⟩)
    · rintro ⟨-, h⟩ leaf hl
      obtain ⟨s, hs, hm, t, ht, he, -⟩ := (hold _ _ _).mp hl
      exact h s hs ⟨hm, t, template, ht, hp, he⟩

theorem holds_add {table table' : RouteTable} {seen : List Route} (hold : Holds codec table seen)
    {r : Route} (h : table.add codec r = .ok table') : Holds codec table' (seen ++ [r]) := by
  unfold add at h
  split at h
  · cases h
  rename_i template hp
  split at h
  · rename_i trie hins
    cases h
    intro method pattern leaf
    have hlookup := WildTrie.lookup_insert hins
    rw [trieOf_upsert]
    simp only [List.mem_append, List.mem_singleton]
    by_cases hm : method = r.operation.method
    · rw [if_pos hm, hlookup pattern]
      by_cases hpat : pattern = template.map Segment.edge
      · rw [if_pos hpat]
        -- the pattern was free, so the new route is the only one under it
        have hfree := (WildTrie.insert_isSome_iff (template.map Segment.edge) (r.leaf template)
          ((Assoc.get table.http r.operation.method).getD .empty)).mp
            (Option.isSome_iff_exists.mpr ⟨trie, hins⟩)
        constructor
        · rintro ⟨⟩
          exact ⟨r, .inr rfl, hm.symm, template, hp, hpat.symm, rfl⟩
        · rintro ⟨s, hs | rfl, hsm, t, ht, he, rfl⟩
          · have hsome := (hold _ _ _).mpr ⟨s, hs, hsm, t, ht, he, rfl⟩
            rw [hm, hpat] at hsome
            rw [trieOf, hfree] at hsome
            cases hsome
          · rw [hp] at ht
            cases ht
            rfl
      · rw [if_neg hpat]
        have := hold r.operation.method pattern leaf
        rw [trieOf] at this
        rw [this]
        constructor
        · rintro ⟨s, hs, hsm, hrest⟩
          exact ⟨s, .inl hs, hsm.trans hm.symm, hrest⟩
        · rintro ⟨s, hs | rfl, hsm, t, ht, he, hl⟩
          · exact ⟨s, hs, hsm.trans hm, t, ht, he, hl⟩
          · rw [hp] at ht
            cases ht
            exact absurd he.symm hpat
    · rw [if_neg hm, hold method pattern leaf]
      constructor
      · rintro ⟨s, hs, hrest⟩
        exact ⟨s, .inl hs, hrest⟩
      · rintro ⟨s, hs | rfl, hsm, hrest⟩
        · exact ⟨s, hs, hsm, hrest⟩
        · exact absurd hsm.symm hm
  · cases h

theorem addAll_isOk_iff {table : RouteTable} {seen rest : List Route}
    (hold : Holds codec table seen) : (∃ table', table.addAll codec rest = .ok table') ↔
      (∀ r ∈ rest, ∃ template, parseTemplate codec r.operation.path = .ok template) ∧
      rest.Pairwise (fun r r' => ¬ Clash codec r r') ∧ ∀ s ∈ seen, ∀ r ∈ rest, ¬ Clash codec s r := by
  induction rest generalizing table seen with
  | nil => simp [addAll]
  | cons r rest ih =>
    have hadd := add_isOk_iff hold r
    cases h : table.add codec r with
    | error e =>
      have hno : ¬ ∃ table', table.add codec r = .ok table' := by simp [h]
      rw [hadd] at hno
      simp only [addAll, h, reduceCtorEq, exists_false, List.forall_mem_cons, false_iff]
      rintro ⟨⟨hp, -⟩, -, hclash⟩
      exact hno ⟨hp, fun s hs => (hclash s hs).1⟩
    | ok table' =>
      obtain ⟨hp, hclash⟩ := hadd.mp ⟨table', h⟩
      simp only [addAll, h, ih (holds_add hold h), List.forall_mem_cons, List.pairwise_cons,
        List.forall_mem_append, List.mem_singleton, forall_eq]
      constructor
      · rintro ⟨hparse, hpair, hseen, hr⟩
        exact ⟨⟨hp, hparse⟩, ⟨hr, hpair⟩, fun s hs => ⟨hclash s hs, hseen s hs⟩⟩
      · rintro ⟨⟨-, hparse⟩, ⟨hr, hpair⟩, hseen⟩
        exact ⟨hparse, hpair, fun s hs => (hseen s hs).2, hr⟩

theorem holds_addAll {table table' : RouteTable} {seen rest : List Route}
    (hold : Holds codec table seen) (h : table.addAll codec rest = .ok table') :
    Holds codec table' (seen ++ rest) := by
  induction rest generalizing table seen with
  | nil =>
    cases h
    simpa using hold
  | cons r rest ih =>
    unfold addAll at h
    split at h
    · cases h
    · rename_i table₁ h₁
      simpa using ih (holds_add hold h₁) h

theorem holds_build {routes : List Route} {table : RouteTable} (h : build codec routes = .ok table) :
    Holds codec table routes := by
  simpa using holds_addAll (holds_empty codec) h

/-- A list of routes is accepted iff all templates parse and no two clash. -/
theorem build_isOk_iff (routes : List Route) : (∃ table, build codec routes = .ok table) ↔
    (∀ r ∈ routes, ∃ template, parseTemplate codec r.operation.path = .ok template) ∧
      routes.Pairwise fun r r' => ¬ Clash codec r r' := by
  have h : (∃ table, build codec routes = .ok table) ↔ _ := addAll_isOk_iff (holds_empty codec)
  simpa using h

theorem build_perm {routes routes' : List Route} (hperm : routes'.Perm routes)
    (h : ∃ table, build codec routes = .ok table) : ∃ table, build codec routes' = .ok table := by
  rw [build_isOk_iff] at h ⊢
  refine ⟨fun r hr => h.1 r (hperm.mem_iff.mp hr), ?_⟩
  exact (hperm.pairwise_iff fun {_ _} hc hc' => hc hc'.symm).mpr h.2

/-- Tables with the same routes hold the same leaves. -/
theorem trieOf_congr {routes routes' : List Route} {table table' : RouteTable}
    (hmem : ∀ r, r ∈ routes' ↔ r ∈ routes) (h : Holds codec table routes)
    (h' : Holds codec table' routes') (method : Method) (pattern : Pattern Text) :
    (table'.trieOf method).lookup pattern = (table.trieOf method).lookup pattern := by
  apply Option.ext
  intro leaf
  rw [h method pattern leaf, h' method pattern leaf]
  simp only [hmem]

end RouteTable

/-! ## Templates and request paths -/

/-- A placeholder stands for any text but the empty one. -/
def Segment.Matches : Segment → Text → Prop
  | .literal value, s => s = value
  | .parameter _, s => s ≠ []

def TemplateMatches (template : List Segment) (segments : List Text) : Prop :=
  List.Forall₂ Segment.Matches template segments

/-- Where the templates first differ, the first one has a literal and the other a placeholder. -/
def TemplatePrefers (template other : List Segment) : Prop :=
  Pattern.Prefers (template.map Segment.edge) (other.map Segment.edge)

/-- Each placeholder with the segment at its position. -/
def placeholderArguments (template : List Segment) (segments : List Text) : List (Text × Text) :=
  (template.zip segments).filterMap fun x => x.1.name.map fun name => (name, x.2)

/-- The decoded segments of an absolute path; `/` has none. -/
def requestSegments (codec : PercentCodec) (path : Text) : Option (List Text) :=
  if path = ['/'] then some [] else (path.tail.splitOn '/').mapM codec.decode

section

variable {codec : PercentCodec}

theorem accepts_of_templateMatches {template : List Segment} {segments : List Text}
    (h : TemplateMatches template segments) : Pattern.Accepts (template.map Segment.edge) segments := by
  unfold Pattern.Accepts
  rw [List.forall₂_map_left_iff]
  refine List.Forall₂.imp ?_ h
  rintro (value | name) s hs
  · exact .inr (congrArg some hs.symm)
  · exact .inl rfl

theorem templateMatches_of_accepts {template : List Segment} {segments : List Text}
    (hne : ∀ s ∈ segments, s ≠ []) (h : Pattern.Accepts (template.map Segment.edge) segments) :
    TemplateMatches template segments := by
  unfold Pattern.Accepts at h
  rw [List.forall₂_map_left_iff] at h
  induction h with
  | nil => exact .nil
  | @cons segment s _ _ hs _ ih =>
    rw [List.forall_mem_cons] at hne
    refine .cons ?_ (ih hne.2)
    cases segment with
    | literal value =>
      rcases hs with hs | hs
      · cases hs
      · exact (Option.some.inj hs).symm
    | parameter name => exact hne.1

/-- The names at a leaf, zipped with the captured segments. -/
theorem zip_captures {template : List Segment} {segments : List Text}
    (h : Pattern.Accepts (template.map Segment.edge) segments) :
    (template.filterMap Segment.name).zip
      (Pattern.captures (template.map Segment.edge) segments) =
      placeholderArguments template segments := by
  unfold Pattern.Accepts at h
  rw [List.forall₂_map_left_iff] at h
  induction h with
  | nil => rfl
  | @cons segment s _ _ _ _ ih =>
    cases segment with
    | literal value => exact ih
    | parameter name => exact congrArg ((name, s) :: ·) ih

theorem map_fst_placeholderArguments_sublist (template : List Segment) (segments : List Text) :
    ((placeholderArguments template segments).map Prod.fst).Sublist
      (template.filterMap Segment.name) := by
  induction template generalizing segments with
  | nil => simp [placeholderArguments]
  | cons segment template ih =>
    cases segments with
    | nil => simp [placeholderArguments]
    | cons s segments =>
      have := ih segments
      cases segment with
      | literal value => exact this
      | parameter name => exact this.cons_cons name

theorem parseSegment_name {segment : Text} {parsed : Segment}
    (h : parseSegment codec segment = .ok parsed) : parsed.name = stripBraces segment := by
  unfold parseSegment at h
  split at h
  · rename_i name hname
    cases h
    exact hname.symm
  · rename_i hname
    split at h
    · cases h
      exact hname.symm
    · cases h

/-- The names in a template are the placeholders of the route. -/
theorem filterMap_name_of_parseTemplate {op : HttpOperation} {template : List Segment}
    (h : parseTemplate codec op.path = .ok template) :
    template.filterMap Segment.name = op.placeholders := by
  have hall := Except.mapM_eq_ok_iff.mp h
  clear h
  unfold HttpOperation.placeholders HttpOperation.segments
  revert hall
  generalize parts '/' op.path = raw
  intro hall
  induction hall with
  | nil => rfl
  | cons hs _ ih => simp only [List.filterMap_cons, parseSegment_name hs, ih]

/-- A registered template has no empty literal. -/
theorem ne_nil_of_templateMatches {path : Text} {template : List Segment} {segments : List Text}
    (h : parseTemplate codec path = .ok template) (hm : TemplateMatches template segments) :
    ∀ s ∈ segments, s ≠ [] := by
  have hall := Except.mapM_eq_ok_iff.mp h
  have hne : ∀ p ∈ parts '/' path, p ≠ [] := fun p hp => (mem_parts hp).1
  clear h
  revert hall hne
  generalize parts '/' path = raw
  intro hall hne
  induction hm generalizing raw with
  | nil => simp
  | @cons parsed s _ _ hs _ ih =>
    obtain ⟨p, raw', hp, hall', rfl⟩ := List.forall₂_cons_right_iff.mp hall
    rw [List.forall_mem_cons] at hne ⊢
    refine ⟨?_, ih _ hall' hne.2⟩
    cases parsed with
    | parameter name => exact hs
    | literal value =>
      unfold parseSegment at hp
      split at hp
      · cases hp
      · split at hp
        · rename_i hdec
          cases hp
          rintro rfl
          have hvalue : value = [] := hs.symm
          rw [hvalue] at hdec
          exact hne.1 (codec.decode_eq_nil p hdec)
        · cases hp

/-- `splitPath` reads the segments of a path, and refuses it if one is empty. -/
theorem splitPath_eq {path : Text} {segments : List Text} (habs : path.head? = some '/')
    (h : requestSegments codec path = some segments) :
    splitPath codec path = if [] ∈ segments then .error notFound else .ok segments := by
  obtain ⟨rest, rfl⟩ := List.head?_eq_some_iff.mp habs
  unfold requestSegments at h
  by_cases hroot : '/' :: rest = ['/']
  · rw [if_pos hroot, Option.some.injEq] at h
    subst h
    rw [hroot]
    rfl
  rw [if_neg hroot, List.tail_cons] at h
  have hall := Option.mapM_eq_some_iff.mp h
  have hnil : [] ∈ segments ↔ [] ∈ rest.splitOn '/' := by
    clear h
    revert hall
    generalize rest.splitOn '/' = raw
    intro hall
    induction hall with
    | nil => simp
    | @cons p s _ _ hp _ ih =>
      have hs : s = [] ↔ p = [] := by
        constructor
        · rintro rfl
          exact codec.decode_eq_nil p hp
        · rintro rfl
          simpa using hp.symm
      rw [List.mem_cons, List.mem_cons, ih, eq_comm, hs, eq_comm (a := p)]
  have hcanon := nil_mem_tail_splitOn_iff '/' ('/' :: rest)
  rw [List.splitOn_cons_eq_if_modifyHead, if_pos (by simp), List.tail_cons, ← hnil] at hcanon
  unfold splitPath
  by_cases hmem : [] ∈ segments
  · rw [if_pos hmem, if_pos ⟨hroot, (hcanon.mp hmem).symm⟩]
  · have hok : ¬ ('/' :: rest ≠ ['/'] ∧ (('/' :: rest).getLast? = some '/' ∨
        ['/', '/'] <:+: '/' :: rest)) := fun hc => hmem (hcanon.mpr hc.2.symm)
    have hparts : parts '/' ('/' :: rest) = rest.splitOn '/' := by
      rw [parts_eq, List.splitOn_cons_eq_if_modifyHead, if_pos (by simp),
        List.filter_cons_of_neg (by simp), List.filter_eq_self]
      intro p hp
      rw [decide_eq_true_eq]
      rintro rfl
      exact hmem (hnil.mpr hp)
    rw [if_neg hmem, if_neg hok, hparts, Except.mapM_eq_ok_iff]
    refine hall.imp ?_
    intro p s hp
    simp [decodeSegment, hp]

end

/-- Validation read a literal the way the codec decodes it. -/
theorem unescape_of_decodeRouteBytes {bs out : List UInt8} (h : decodeRouteBytes bs = .ok out) :
    unescape bs = out := by
  have hhex : ∀ {b : UInt8} {n : Nat}, uppercaseHexValue b = some n →
      ∃ x : Fin 16, hexValue b = some x ∧ x.val = n := by
    intro b n hb
    unfold uppercaseHexValue at hb
    unfold hexValue
    split at hb
    · cases hb
      exact ⟨⟨b.toNat - 48, by omega⟩, dif_pos (by omega), rfl⟩
    · split at hb
      · cases hb
        refine ⟨⟨b.toNat - 55, by omega⟩, ?_, by simp only; omega⟩
        rw [dif_neg (by omega), dif_pos (by omega)]
      · cases hb
  induction bs using decodeRouteBytes.induct generalizing out with
  | case1 =>
    cases h
    rfl
  | case2 high low rest l h' hl hh hlt =>
    simp [decodeRouteBytes, hl, hh, hlt] at h
  | case3 high low rest l h' hl hh hlt ih =>
    simp only [decodeRouteBytes, if_true, hl, hh, if_neg hlt] at h
    obtain ⟨tail, ht, rfl⟩ := Except.map_eq_ok_iff.mp h
    obtain ⟨l', hl', rfl⟩ := hhex hl
    obtain ⟨h'', hh', rfl⟩ := hhex hh
    rw [unescape_escape hh' hl', ih ht]
  | case4 high low rest hno =>
    rw [decodeRouteBytes, if_pos rfl] at h
    split at h
    · rename_i h' l hh hl
      exact (hno h' l hh hl).elim
    · cases h
  | case5 rest hno =>
    rw [decodeRouteBytes.eq_def] at h
    simp only [if_true] at h
    cases h
  | case6 b rest hb hchar =>
    rw [decodeRouteBytes.eq_def] at h
    simp only [if_neg hb, if_pos hchar] at h
    cases h
  | case7 b rest hb hchar ih =>
    rw [decodeRouteBytes.eq_def] at h
    simp only [if_neg hb, if_neg hchar] at h
    obtain ⟨tail, ht, rfl⟩ := Except.map_eq_ok_iff.mp h
    rw [unescape_cons_of_ne hb, ih ht]

/-- A literal that passed validation decodes to the text validation saw. -/
theorem decode_of_decodeRouteLiteral (codec : PercentCodec) {segment decoded : Text}
    (h : decodeRouteLiteral segment = .ok decoded) : codec.decode segment = some decoded := by
  unfold decodeRouteLiteral at h
  split at h
  · cases h
  rename_i bytes hbytes
  split at h
  · cases h
  rename_i text htext
  split at h
  · cases h
  split at h
  · cases h
  cases h
  apply codec.decode_of_utf8
  rw [unescape_of_decodeRouteBytes hbytes, htext]

/-- The route of a validated operation always parses. -/
theorem parseTemplate_isOk (codec : PercentCodec) (op : HttpOperation) :
    ∃ template, parseTemplate codec op.path = .ok template := by
  have hseg := op.route_spec.2.2.2.1
  unfold parseTemplate
  unfold HttpOperation.segments at hseg
  revert hseg
  generalize parts '/' op.path = segments
  intro hseg
  induction segments with
  | nil => exact ⟨[], rfl⟩
  | cons segment segments ih =>
    rw [List.forall_mem_cons] at hseg
    obtain ⟨rest, hrest⟩ := ih hseg.2
    have hparse : ∃ s, parseSegment codec segment = .ok s := by
      have hroute := hseg.1
      unfold IsRouteSegment at hroute
      unfold parseSegment
      cases hname : stripBraces segment with
      | some name => exact ⟨.parameter name, rfl⟩
      | none =>
        rw [hname] at hroute
        obtain ⟨-, -, decoded, hdec⟩ := hroute
        dsimp only
        rw [decode_of_decodeRouteLiteral codec hdec]
        exact ⟨_, rfl⟩
    obtain ⟨s, hs⟩ := hparse
    refine ⟨s :: rest, Except.mapM_eq_ok_iff.mpr ?_⟩
    exact .cons hs (Except.mapM_eq_ok_iff.mp hrest)

/-! ## Route selection -/

/-- `r` with `template` is what the specification selects for these segments. -/
structure Selected (codec : PercentCodec) (routes : List Route) (method : Method)
    (segments : List Text) (r : Route) (template : List Segment) : Prop where
  mem : r ∈ routes
  method_eq : r.operation.method = method
  parsed : parseTemplate codec r.operation.path = .ok template
  matches_ : TemplateMatches template segments
  best : ∀ r' ∈ routes, r'.operation.method = method → ∀ template',
    parseTemplate codec r'.operation.path = .ok template' → TemplateMatches template' segments →
      r' = r ∨ TemplatePrefers template template'

namespace RouteTable

variable {codec : PercentCodec}

/-- A single operation always makes a table. -/
theorem build_singleton (codec : PercentCodec) (r : Route) :
    ∃ table, build codec [r] = .ok table := by
  rw [build_isOk_iff]
  exact ⟨by simpa using parseTemplate_isOk codec r.operation, List.pairwise_singleton _ _⟩

theorem matchHttp_eq {table : RouteTable} {method : Method} {path : Text} {segments : List Text}
    (h : splitPath codec path = .ok segments) : table.matchHttp codec method path =
      match (table.trieOf method).find segments with
      | some (leaf, captured) =>
        .ok ⟨leaf.route, Assoc.toMap (leaf.parameterNames.zip captured)⟩
      | none => .error notFound := by
  unfold matchHttp trieOf
  simp only [h]
  cases Assoc.get table.http method with
  | none => cases segments <;> rfl
  | some trie =>
    simp only [HttpRouteTrie.matchSegments_eq, Option.getD_some]
    cases WildTrie.find segments trie with
    | none => rfl
    | some r => simp

/-- A match is the selected route with its arguments. -/
theorem matchHttp_eq_ok_iff {routes : List Route} {table : RouteTable}
    (hbuild : build codec routes = .ok table) (method : Method) {path : Text}
    (habs : path.head? = some '/') {segments : List Text}
    (hseg : requestSegments codec path = some segments) (m : MatchedRoute) :
    table.matchHttp codec method path = .ok m ↔
      ∃ template, Selected codec routes method segments m.route template ∧
        m.pathArguments = placeholderArguments template segments := by
  have hold := holds_build hbuild
  have hsplit := splitPath_eq habs hseg
  by_cases hmem : [] ∈ segments
  · rw [if_pos hmem] at hsplit
    have herr : table.matchHttp codec method path = .error notFound := by simp [matchHttp, hsplit]
    rw [herr]
    simp only [reduceCtorEq, false_iff]
    rintro ⟨template, hsel, -⟩
    exact ne_nil_of_templateMatches hsel.parsed hsel.matches_ [] hmem rfl
  rw [if_neg hmem] at hsplit
  have hne : ∀ s ∈ segments, s ≠ [] := fun s hs he => hmem (he ▸ hs)
  rw [matchHttp_eq hsplit]
  have hargs : ∀ {r : Route} {template : List Segment}, parseTemplate codec r.operation.path = .ok template →
      TemplateMatches template segments →
      Assoc.toMap ((r.leaf template).parameterNames.zip
        (Pattern.captures (template.map Segment.edge) segments)) =
          placeholderArguments template segments := by
    intro r template hp hm
    show Assoc.toMap ((template.filterMap Segment.name).zip _) = _
    rw [zip_captures (accepts_of_templateMatches hm), Assoc.toMap_of_nodup]
    apply (map_fst_placeholderArguments_sublist template segments).nodup
    rw [filterMap_name_of_parseTemplate hp]
    exact r.operation.route_spec.2.2.1
  constructor
  · intro h
    split at h
    · rename_i leaf captured hfind
      obtain ⟨pattern, hl, hacc, rfl, hbest⟩ := WildTrie.find_sound hfind
      obtain ⟨r, hr, hm, template, hp, rfl, rfl⟩ := (hold _ _ _).mp hl
      have hmatch := templateMatches_of_accepts hne hacc
      cases h
      refine ⟨template, ⟨hr, hm, hp, hmatch, ?_⟩, hargs hp hmatch⟩
      intro r' hr' hm' template' hp' hmatch'
      have hl' := (hold _ _ _).mpr ⟨r', hr', hm', template', hp', rfl, rfl⟩
      rcases hbest _ (by rw [hl']; rfl) (accepts_of_templateMatches hmatch') with he | hpref
      · rw [he, hl, Option.some.injEq] at hl'
        exact .inl (congrArg HttpRouteLeaf.route hl').symm
      · exact .inr hpref
    · cases h
  · rintro ⟨template, hsel, hpath⟩
    have hacc := accepts_of_templateMatches hsel.matches_
    have hfind : (table.trieOf method).find segments = some (m.route.leaf template,
        Pattern.captures (template.map Segment.edge) segments) := by
      rw [WildTrie.find_eq_some_iff]
      refine ⟨template.map Segment.edge, (hold _ _ _).mpr ⟨m.route, hsel.mem, hsel.method_eq,
        template, hsel.parsed, rfl, rfl⟩, hacc, rfl, ?_⟩
      intro q hq hqa
      obtain ⟨leaf', hl'⟩ := Option.isSome_iff_exists.mp hq
      obtain ⟨r', hr', hm', template', hp', rfl, rfl⟩ := (hold _ _ _).mp hl'
      rcases hsel.best r' hr' hm' template' hp' (templateMatches_of_accepts hne hqa) with rfl | hpref
      · rw [hsel.parsed] at hp'
        cases hp'
        exact .inl rfl
      · exact .inr hpref
    rw [hfind]
    simp only
    rw [hargs hsel.parsed hsel.matches_, ← hpath]
    rfl

theorem matchHttp_eq_error {table : RouteTable} {method : Method}
    {path : Text} {segments : List Text} (habs : path.head? = some '/')
    (hseg : requestSegments codec path = some segments)
    (h : ∀ m, table.matchHttp codec method path ≠ .ok m) :
    table.matchHttp codec method path = .error notFound := by
  have hsplit := splitPath_eq habs hseg
  split at hsplit
  · simp [matchHttp, hsplit]
  · rw [matchHttp_eq hsplit] at h ⊢
    split at h
    · rename_i leaf captured hfind
      exact absurd rfl (h _)
    · rfl

/-- **Route selection is its specification.**  For every accepted list of routes and every
absolute path whose segments decode, `matchHttp` answers with the selected route and the
arguments of its placeholders, fails with `route_not_found` iff no template matches, and
answers the same for every other order of insertion. -/
theorem matchHttp_selects {routes : List Route} {table : RouteTable}
    (hbuild : build codec routes = .ok table) (method : Method) {path : Text}
    (habs : path.head? = some '/') {segments : List Text}
    (hseg : requestSegments codec path = some segments) :
    (∀ m, table.matchHttp codec method path = .ok m ↔
      ∃ template, Selected codec routes method segments m.route template ∧
        m.pathArguments = placeholderArguments template segments) ∧
    ((∃ m, table.matchHttp codec method path = .ok m) ↔
      ∃ r ∈ routes, r.operation.method = method ∧ ∃ template,
        parseTemplate codec r.operation.path = .ok template ∧ TemplateMatches template segments) ∧
    ((∀ m, table.matchHttp codec method path ≠ .ok m) →
      table.matchHttp codec method path = .error notFound) ∧
    ∀ routes', routes'.Perm routes → ∃ table', build codec routes' = .ok table' ∧
      table'.matchHttp codec method path = table.matchHttp codec method path := by
  have hok := matchHttp_eq_ok_iff hbuild method habs hseg
  refine ⟨hok, ?_, matchHttp_eq_error habs hseg, ?_⟩
  · constructor
    · rintro ⟨m, hm⟩
      obtain ⟨template, hsel, -⟩ := (hok m).mp hm
      exact ⟨m.route, hsel.mem, hsel.method_eq, template, hsel.parsed, hsel.matches_⟩
    · rintro ⟨r, hr, hm, template, hp, hmatch⟩
      have hne := ne_nil_of_templateMatches hp hmatch
      have hsplit := splitPath_eq habs hseg
      rw [if_neg fun h => hne [] h rfl] at hsplit
      have hfind : ((table.trieOf method).find segments).isSome := by
        rw [WildTrie.find_isSome_iff]
        refine ⟨template.map Segment.edge, ?_, accepts_of_templateMatches hmatch⟩
        rw [(holds_build hbuild _ _ _).mpr ⟨r, hr, hm, template, hp, rfl, rfl⟩]
        rfl
      obtain ⟨⟨leaf, captured⟩, hf⟩ := Option.isSome_iff_exists.mp hfind
      exact ⟨_, by rw [matchHttp_eq hsplit, hf]⟩
  · intro routes' hperm
    obtain ⟨table', hbuild'⟩ := build_perm hperm ⟨table, hbuild⟩
    refine ⟨table', hbuild', ?_⟩
    have hsplit := splitPath_eq habs hseg
    split at hsplit
    · simp [matchHttp, hsplit]
    · have hcongr := trieOf_congr (fun r => hperm.mem_iff) (holds_build hbuild)
        (holds_build hbuild') method
      rw [matchHttp_eq hsplit, matchHttp_eq hsplit, WildTrie.find_congr hcongr]

def pathParameter (name : String) (h : isIdentityComponent name.toList = true) : HttpParameter :=
  ⟨name.toList, .path, .scalar, h⟩

def summaryRoute : Route where
  service := "parameter-fallback".toList
  method := ⟨0, "summary".toList, .json .get "/catalog/{id}/summary"
    [pathParameter "id" (by decide)] (by decide +kernel), by decide⟩

def detailsRoute : Route where
  service := "literal-dead-end".toList
  method := ⟨0, "details".toList, .json .get "/catalog/special/details" [] (by decide +kernel), by decide⟩

def summaryTemplate : List Segment :=
  [.literal "catalog".toList, .parameter "id".toList, .literal "summary".toList]

def detailsTemplate : List Segment :=
  [.literal "catalog".toList, .literal "special".toList, .literal "details".toList]

/-- The literal edge `special` is a dead end for `/catalog/special/summary`. -/
theorem matchHttp_selects_fallback : ∃ table,
    build .utf8 [detailsRoute, summaryRoute] = .ok table ∧
    ∃ m, table.matchHttp .utf8 .get "/catalog/special/summary".toList = .ok m := by
  have hsummary : parseTemplate .utf8 summaryRoute.operation.path = .ok summaryTemplate := by
    decide +kernel
  have hdetails : parseTemplate .utf8 detailsRoute.operation.path = .ok detailsTemplate := by
    decide +kernel
  obtain ⟨table, hbuild⟩ : ∃ table, build .utf8 [detailsRoute, summaryRoute] = .ok table := by
    rw [build_isOk_iff]
    refine ⟨by simp [hsummary, hdetails], ?_⟩
    rw [List.pairwise_pair]
    rintro ⟨-, t, t', ht, ht', he⟩
    rw [hdetails, Except.ok.injEq] at ht
    rw [hsummary, Except.ok.injEq] at ht'
    subst ht ht'
    exact absurd he (by decide)
  have hseg : requestSegments .utf8 "/catalog/special/summary".toList =
      some ["catalog".toList, "special".toList, "summary".toList] := by
    decide +kernel
  refine ⟨table, hbuild, (matchHttp_selects hbuild .get (by decide) hseg).2.1.mpr ?_⟩
  have hspecial : Segment.Matches (.parameter "id".toList) "special".toList :=
    (by decide : "special".toList ≠ [])
  exact ⟨summaryRoute, by simp, rfl, summaryTemplate, hsummary,
    .cons rfl (.cons hspecial (.cons rfl .nil))⟩

end RouteTable

end Fusen.Server
