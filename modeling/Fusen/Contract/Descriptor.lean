import Fusen.Contract.Selector
import Fusen.Lib.Decimal
import Fusen.Lib.Result

/-!
# Service descriptors (`fusen-contract/service.rs`)

`ServiceDescriptor.new` compares the routes of a service as texts.  Two routes of one
shape have the same text (`httpRouteShape_eq_iff`), since a literal has exactly one
spelling (`decodeRouteLiteral_inj`).
-/

namespace Fusen.Contract

open Lib

/-! ## The validation of methods -/

/-- A segment as it is compared: the name of a placeholder does not count. -/
def segmentShape (segment : Text) : Text :=
  if segment.head? = some '{' then "{}".toList else segment

def httpRouteShape (path : Text) : Text :=
  ((path.splitOn '/').flatMap fun segment => '/' :: segmentShape segment).tail

/-- The loop of `validate_methods`. -/
def validateMethodsFrom (index : Nat) (names : List Text) (routes : List (Text × Text)) :
    List MethodDescriptor → Except ContractError Unit
  | [] => .ok ()
  | method :: rest =>
    let operation := method.http
    let route := (methodText operation.method, httpRouteShape operation.path)
    if method.id ≠ index then
      .error (.invalidMethod ("method ".toList ++ method.invocationName ++
        " has non-contiguous local id ".toList ++ decimal method.id))
    else if names.contains method.invocationName then
      .error (.invalidMethod ("duplicate invocation method name ".toList ++ method.invocationName))
    else if routes.contains route then
      .error (.invalidMethod ("duplicate HTTP route ".toList ++ methodText operation.method ++
        ' ' :: operation.path))
    else validateMethodsFrom (index + 1) (names ++ [method.invocationName]) (routes ++ [route]) rest

def validateMethods (methods : List MethodDescriptor) : Except ContractError Unit :=
  if methods = [] then .error .emptyMethods else validateMethodsFrom 0 [] [] methods

structure ServiceDescriptor where
  selector : ServiceSelector
  methods : List MethodDescriptor
  valid : validateMethods methods = .ok ()

def ServiceDescriptor.new (selector : ServiceSelector) (methods : List MethodDescriptor) :
    Except ContractError ServiceDescriptor :=
  match h : validateMethods methods with
  | .error e => .error e
  | .ok () => .ok ⟨selector, methods, h⟩

/-! ## The one spelling of a literal -/

def upperHexDigit (n : Nat) : UInt8 := if n < 10 then UInt8.ofNat (48 + n) else UInt8.ofNat (55 + n)

/-- How a byte of a literal is written in a route. -/
def routeSpelling (b : UInt8) : List UInt8 :=
  if b.toNat < 128 then [b] else [37, upperHexDigit (b.toNat / 16), upperHexDigit (b.toNat % 16)]

theorem upperHexDigit_of_value {b : UInt8} {n : Nat} (h : uppercaseHexValue b = some n) :
    n < 16 ∧ upperHexDigit n = b := by
  unfold uppercaseHexValue at h
  unfold upperHexDigit
  split at h
  · cases h
    refine ⟨by omega, ?_⟩
    rw [if_pos (by omega)]
    apply UInt8.toNat_inj.mp
    rw [UInt8.toNat_ofNat']
    omega
  · split at h
    · cases h
      refine ⟨by omega, ?_⟩
      rw [if_neg (by omega)]
      apply UInt8.toNat_inj.mp
      rw [UInt8.toNat_ofNat']
      omega
    · cases h

theorem lt_of_isRoutePchar {b : UInt8} (h : isRoutePchar b = true) : b.toNat < 128 := by
  have hall : ∀ n : Fin 256, isRoutePchar (UInt8.ofNat n.val) = true → n.val < 128 := by
    decide +kernel
  have hb := hall ⟨b.toNat, b.toNat_lt⟩
  rw [UInt8.ofNat_toNat] at hb
  exact hb h

/-- **A literal is spelled from what it decodes to.** -/
theorem flatMap_routeSpelling {bs out : List UInt8} (h : decodeRouteBytes bs = .ok out) :
    out.flatMap routeSpelling = bs := by
  induction bs using decodeRouteBytes.induct generalizing out with
  | case1 =>
    cases h
    rfl
  | case2 high low rest l h' hl hh hlt =>
    simp [decodeRouteBytes, hl, hh, hlt] at h
  | case3 high low rest l h' hl hh hlt ih =>
    simp only [decodeRouteBytes, if_true, hl, hh, if_neg hlt] at h
    obtain ⟨tail, ht, rfl⟩ := Except.map_eq_ok_iff.mp h
    obtain ⟨hhigh, rfl⟩ := upperHexDigit_of_value hl
    obtain ⟨hlow, rfl⟩ := upperHexDigit_of_value hh
    have hvalue : (UInt8.ofNat (l * 16 + h')).toNat = l * 16 + h' := by
      rw [UInt8.toNat_ofNat']
      omega
    have hdiv : (l * 16 + h') / 16 = l := by omega
    have hmod : (l * 16 + h') % 16 = h' := by omega
    rw [List.flatMap_cons, ih ht, routeSpelling, hvalue, if_neg hlt, hdiv, hmod]
    rfl
  | case4 high low rest hno =>
    rw [decodeRouteBytes, if_pos rfl] at h
    split at h
    · rename_i h' l hh hl
      exact (hno h' l hh hl).elim
    · cases h
  | case5 rest hno =>
    rw [decodeRouteBytes.eq_def] at h
    simp only [if_true] at h
    cases h
  | case6 b rest hb hchar =>
    rw [decodeRouteBytes.eq_def] at h
    simp only [if_neg hb, if_pos hchar] at h
    cases h
  | case7 b rest hb hchar ih =>
    rw [decodeRouteBytes.eq_def] at h
    simp only [if_neg hb, if_neg hchar] at h
    obtain ⟨tail, ht, rfl⟩ := Except.map_eq_ok_iff.mp h
    have hascii := lt_of_isRoutePchar (by simpa using hchar)
    rw [List.flatMap_cons, ih ht, routeSpelling, if_pos hascii]
    rfl

theorem decodeRouteLiteral_bytes {segment decoded : Text}
    (h : decodeRouteLiteral segment = .ok decoded) :
    decodeRouteBytes (utf8 segment) = .ok (utf8 decoded) := by
  unfold decodeRouteLiteral at h
  split at h
  · cases h
  rename_i bytes hbytes
  split at h
  · cases h
  rename_i text htext
  split at h
  · cases h
  split at h
  · cases h
  cases h
  rw [hbytes, utf8_of_utf8Text htext]

theorem decodeRouteLiteral_inj {s t decoded : Text} (hs : decodeRouteLiteral s = .ok decoded)
    (ht : decodeRouteLiteral t = .ok decoded) : s = t := by
  have hspelled := flatMap_routeSpelling (decodeRouteLiteral_bytes hs)
  rw [flatMap_routeSpelling (decodeRouteLiteral_bytes ht)] at hspelled
  exact (utf8_inj hspelled).symm

/-! ## Shapes -/

/-- Two segments of valid routes that match the same requests. -/
def SameSegment (s t : Text) : Prop :=
  match stripBraces s, stripBraces t with
  | some _, some _ => True
  | none, none => ∃ decoded, decodeRouteLiteral s = .ok decoded ∧ decodeRouteLiteral t = .ok decoded
  | _, _ => False

/-- **Two routes have the same shape**: segment by segment both are placeholders, or
literals that decode to the same text. -/
def SameShape (p q : Text) : Prop := List.Forall₂ SameSegment (parts '/' p) (parts '/' q)

theorem head_of_isRouteSegment {s : Text} (h : IsRouteSegment s) :
    s.head? = some '{' ↔ ∃ name, stripBraces s = some name := by
  unfold IsRouteSegment at h
  cases hs : stripBraces s with
  | some name =>
    rw [stripBraces_eq_some hs]
    simp
  | none =>
    rw [hs] at h
    simp only [reduceCtorEq, exists_false, iff_false]
    intro hhead
    exact h.1 (List.mem_of_head? hhead)

theorem segmentShape_eq_iff {s t : Text} (hs : IsRouteSegment s) (ht : IsRouteSegment t) :
    segmentShape s = segmentShape t ↔ SameSegment s t := by
  have hheadS := head_of_isRouteSegment hs
  have hheadT := head_of_isRouteSegment ht
  unfold segmentShape SameSegment
  unfold IsRouteSegment at hs ht
  cases hsb : stripBraces s with
  | some name =>
    rw [hsb] at hheadS
    rw [if_pos (hheadS.mpr ⟨name, rfl⟩)]
    cases htb : stripBraces t with
    | some name' =>
      rw [htb] at hheadT
      rw [if_pos (hheadT.mpr ⟨name', rfl⟩)]
      exact iff_of_true rfl trivial
    | none =>
      rw [htb] at ht hheadT
      rw [if_neg (fun h => nomatch hheadT.mp h)]
      refine iff_of_false (fun h => ht.1 ?_) not_false
      rw [← h]
      decide
  | none =>
    rw [hsb] at hs hheadS
    rw [if_neg (fun h => nomatch hheadS.mp h)]
    cases htb : stripBraces t with
    | some name' =>
      rw [htb] at hheadT
      rw [if_pos (hheadT.mpr ⟨name', rfl⟩)]
      refine iff_of_false (fun h => hs.1 ?_) not_false
      rw [h]
      decide
    | none =>
      rw [htb] at ht hheadT
      rw [if_neg (fun h => nomatch hheadT.mp h)]
      constructor
      · rintro rfl
        obtain ⟨decoded, hdecoded⟩ := hs.2.2
        exact ⟨decoded, hdecoded, hdecoded⟩
      · rintro ⟨decoded, hdecoded, hdecoded'⟩
        exact decodeRouteLiteral_inj hdecoded hdecoded'

theorem httpRouteShape_joinParts {segments : List Text} (h : ∀ s ∈ segments, '/' ∉ s) :
    httpRouteShape (joinParts '/' segments) = joinParts '/' (segments.map segmentShape) := by
  unfold httpRouteShape
  rw [splitOn_joinParts h]
  by_cases hnil : segments = []
  · subst hnil
    rfl
  · rw [if_neg hnil, joinParts, if_neg (by simpa using hnil), List.flatMap_cons, List.flatMap_map]
    rfl

theorem segmentShape_part {s : Text} (h : s ≠ [] ∧ '/' ∉ s) :
    segmentShape s ≠ [] ∧ '/' ∉ segmentShape s := by
  unfold segmentShape
  split
  · decide
  · exact h

/-- A function that separates the shapes of segments separates those of routes. -/
theorem map_eq_map_iff {β : Type} {f : Text → β}
    (hf : ∀ s t, IsRouteSegment s → IsRouteSegment t → (f s = f t ↔ SameSegment s t))
    {ss ts : List Text} (hs : ∀ s ∈ ss, IsRouteSegment s) (ht : ∀ t ∈ ts, IsRouteSegment t) :
    ss.map f = ts.map f ↔ List.Forall₂ SameSegment ss ts := by
  induction ss generalizing ts with
  | nil => cases ts <;> simp
  | cons s ss ih =>
    cases ts with
    | nil => simp
    | cons t ts =>
      rw [List.forall_mem_cons] at hs ht
      rw [List.map_cons, List.map_cons, List.cons.injEq, List.forall₂_cons, hf s t hs.1 ht.1,
        ih hs.2 ht.2]

/-- **The texts that are compared are equal exactly for routes of the same shape.** -/
theorem httpRouteShape_eq_iff (op op' : HttpOperation) :
    httpRouteShape op.path = httpRouteShape op'.path ↔ SameShape op.path op'.path := by
  obtain ⟨hjoin, -, -, hsegments, -⟩ := op.route_spec
  obtain ⟨hjoin', -, -, hsegments', -⟩ := op'.route_spec
  have hparts : ∀ s ∈ op.segments, s ≠ [] ∧ '/' ∉ s := fun s hs => mem_parts hs
  have hparts' : ∀ s ∈ op'.segments, s ≠ [] ∧ '/' ∉ s := fun s hs => mem_parts hs
  have hshapes : ∀ segments : List Text, (∀ s ∈ segments, s ≠ [] ∧ '/' ∉ s) →
      ∀ shape ∈ segments.map segmentShape, shape ≠ [] ∧ '/' ∉ shape := by
    intro segments h shape hshape
    obtain ⟨s, hs, rfl⟩ := List.mem_map.mp hshape
    exact segmentShape_part (h s hs)
  have hshape : httpRouteShape op.path = joinParts '/' (op.segments.map segmentShape) := by
    rw [← hjoin]
    exact httpRouteShape_joinParts fun s hs => (hparts s hs).2
  have hshape' : httpRouteShape op'.path = joinParts '/' (op'.segments.map segmentShape) := by
    rw [← hjoin']
    exact httpRouteShape_joinParts fun s hs => (hparts' s hs).2
  have hsame : SameShape op.path op'.path ↔
      op.segments.map segmentShape = op'.segments.map segmentShape :=
    (map_eq_map_iff (fun _ _ hs ht => segmentShape_eq_iff hs ht) hsegments hsegments').symm
  rw [hshape, hshape', hsame]
  constructor
  · intro h
    rw [← parts_joinParts (hshapes _ hparts), h, parts_joinParts (hshapes _ hparts')]
  · intro h
    rw [h]

/-! ## Accepted descriptors -/

theorem isSupportedMethod_of_valid (op : HttpOperation) : isSupportedMethod op.method = true := by
  by_contra h
  have hvalid := op.valid
  unfold validateHttpOperation at hvalid
  rw [if_pos (by simpa using h)] at hvalid
  cases hvalid

def supportedMethods : List Method := [.get, .post, .put, .patch, .delete, .head, .options]

theorem mem_supportedMethods {m : Method} (h : isSupportedMethod m = true) :
    m ∈ supportedMethods := by
  cases m with
  | extension name => cases h
  | _ => decide

theorem methodText_inj {m m' : Method} (hm : isSupportedMethod m = true)
    (hm' : isSupportedMethod m' = true) (h : methodText m = methodText m') : m = m' := by
  have hall : ∀ m ∈ supportedMethods, ∀ m' ∈ supportedMethods, methodText m = methodText m' →
      m = m' := by decide
  exact hall m (mem_supportedMethods hm) m' (mem_supportedMethods hm') h

/-- Two operations with one method and one shape. -/
def SameRoute (op op' : HttpOperation) : Prop :=
  op.method = op'.method ∧ SameShape op.path op'.path

/-- What `validate_methods` compares of an operation. -/
def routeText (op : HttpOperation) : Text × Text := (methodText op.method, httpRouteShape op.path)

theorem routeText_eq_iff (op op' : HttpOperation) : routeText op = routeText op' ↔ SameRoute op op' := by
  unfold routeText SameRoute
  rw [Prod.mk.injEq, httpRouteShape_eq_iff]
  refine and_congr_left fun _ => ⟨fun h => ?_, fun h => congrArg methodText h⟩
  exact methodText_inj (isSupportedMethod_of_valid op) (isSupportedMethod_of_valid op') h

/-- What the loop checks. -/
theorem validateMethodsFrom_ok_iff {index : Nat} {names : List Text} {routes : List (Text × Text)}
    {methods : List MethodDescriptor} :
    validateMethodsFrom index names routes methods = .ok () ↔
      methods.map MethodDescriptor.id = List.range' index methods.length ∧
      ((methods.map MethodDescriptor.invocationName).Nodup ∧
        ∀ m ∈ methods, m.invocationName ∉ names) ∧
      (methods.map fun m => routeText m.http).Nodup ∧ ∀ m ∈ methods, routeText m.http ∉ routes := by
  induction methods generalizing index names routes with
  | nil => simp [validateMethodsFrom]
  | cons m rest ih =>
    have hroute : (methodText m.http.method, httpRouteShape m.http.path) = routeText m.http := rfl
    simp only [validateMethodsFrom, hroute]
    by_cases hid : m.id = index
    · by_cases hname : m.invocationName ∈ names
      · simp [hid, hname]
      · by_cases hseen : routeText m.http ∈ routes
        · simp [hid, hname, hseen]
        · simp only [hid, ne_eq, not_true_eq_false, if_false, List.contains_iff_mem, hname, hseen, ih,
            List.mem_append, List.mem_singleton, not_or, List.map_cons, List.length_cons,
            List.range'_succ, List.cons.injEq, true_and, List.nodup_cons, List.mem_map,
            List.forall_mem_cons, not_false_eq_true]
          grind
    · simp only [ne_eq, hid, not_false_eq_true, if_true, reduceCtorEq, List.map_cons,
        List.length_cons, List.range'_succ, List.cons.injEq, false_and]

/-- **What `ServiceDescriptor::new` accepts.** -/
theorem validateMethods_ok_iff (methods : List MethodDescriptor) :
    validateMethods methods = .ok () ↔ methods ≠ [] ∧
      methods.map MethodDescriptor.id = List.range methods.length ∧
      (methods.map MethodDescriptor.invocationName).Nodup ∧
      methods.Pairwise fun m m' => ¬ SameRoute m.http m'.http := by
  have hroutes : (methods.map fun m => routeText m.http).Nodup ↔
      methods.Pairwise fun m m' => ¬ SameRoute m.http m'.http := by
    simp only [List.Nodup, List.pairwise_map, ne_eq, routeText_eq_iff]
  unfold validateMethods
  by_cases hnil : methods = []
  · simp [hnil]
  · rw [if_neg hnil, validateMethodsFrom_ok_iff, hroutes, ← List.range_eq_range']
    simp only [List.not_mem_nil, not_false_eq_true, implies_true, and_true, ne_eq, hnil, true_and]

end Fusen.Contract
