import Fusen.Nacos.Instance

/-!
# The base path of an endpoint

The path is split at its slashes, and each segment is decoded and pushed again.
`pushSegments_eq_iff`: it comes back unchanged exactly if it is the join of its segments
and each of them is what its text is encoded as.
-/

namespace Fusen.Nacos

open Lib

/-! ## Parts -/

theorem parts_append_cons (c : Char) (s t : Text) :
    parts c (s ++ c :: t) = parts c s ++ parts c t := by
  rw [parts_eq, parts_eq, parts_eq, List.splitOn_append_cons_self, List.filter_append]

theorem parts_of_notMem {c : Char} {s : Text} (h : c ∉ s) :
    parts c s = if s = [] then [] else [s] := by
  rw [parts_eq, List.splitOn_eq_singleton h]
  by_cases hs : s = [] <;> simp [hs]

/-- One element for each, where none can give more. -/
theorem forall₂_of_flatMap {α β : Type} {f : α → List β} {ds : List α}
    (hf : ∀ d ∈ ds, (f d).length ≤ 1) (hlength : (ds.flatMap f).length = ds.length) :
    List.Forall₂ (fun d p => f d = [p]) ds (ds.flatMap f) := by
  induction ds with
  | nil => exact .nil
  | cons d ds ih =>
    rw [List.forall_mem_cons] at hf
    have hle : (ds.flatMap f).length ≤ ds.length := by
      clear ih hlength
      induction ds with
      | nil => exact Nat.le_refl _
      | cons d' ds ih =>
        rw [List.forall_mem_cons] at hf
        rw [List.flatMap_cons, List.length_append, List.length_cons]
        have := ih ⟨hf.1, hf.2.2⟩
        have := hf.2.1
        omega
    rw [List.flatMap_cons, List.length_append, List.length_cons] at hlength
    have hone : (f d).length = 1 := by
      have := hf.1
      omega
    obtain ⟨p, hp⟩ := List.length_eq_one_iff.mp hone
    rw [List.flatMap_cons, hp, List.singleton_append]
    exact .cons hp (ih hf.2 (by omega))

theorem exists_of_forall₂ {α β : Type} {R : α → β → Prop} {S : β → α → Prop} {as : List α}
    {bs : List β} (h : List.Forall₂ R as bs) (h' : List.Forall₂ S bs as) :
    ∀ a ∈ as, ∃ b, R a b ∧ S b a := by
  induction h with
  | nil => exact nofun
  | cons hr _ ih =>
    cases h' with
    | cons hs hss => exact List.forall_mem_cons.mpr ⟨⟨_, hr, hs⟩, ih hss⟩

/-! ## Pushing segments -/

section

variable {crate : UrlCrate}

/-- A segment that is what its text is encoded as. -/
def CanonicalSegment (crate : UrlCrate) (segment : Text) : Prop :=
  ∃ decoded, crate.codec.decode segment = some decoded ∧ decoded ≠ ['.'] ∧ decoded ≠ ['.', '.'] ∧
    crate.encodeSegment decoded = segment

def CanonicalPath (crate : UrlCrate) (path : Text) : Prop :=
  joinParts '/' (parts '/' path) = path ∧ ∀ segment ∈ parts '/' path, CanonicalSegment crate segment

/-- The parts that pushing a text adds. -/
def pushed (crate : UrlCrate) (decoded : Text) : List Text :=
  if decoded = ['.'] ∨ decoded = ['.', '.'] then [] else parts '/' (crate.encodeSegment decoded)

theorem parts_push (path decoded : Text) :
    parts '/' (crate.push path decoded) = parts '/' path ++ pushed crate decoded := by
  unfold UrlCrate.push pushed
  by_cases hdot : decoded = ['.'] ∨ decoded = ['.', '.']
  · rw [if_pos hdot, if_pos hdot, List.append_nil]
  · rw [if_neg hdot, if_neg hdot]
    by_cases hroot : path = ['/']
    · rw [if_pos hroot, hroot]
      exact parts_append_cons '/' [] (crate.encodeSegment decoded)
    · rw [if_neg hroot, List.append_assoc]
      exact parts_append_cons '/' path (crate.encodeSegment decoded)

theorem pushed_length (hslash : ∀ s, '/' ∉ crate.encodeSegment s) (decoded : Text) :
    (pushed crate decoded).length ≤ 1 := by
  unfold pushed
  rw [parts_of_notMem (hslash decoded)]
  split
  · exact Nat.zero_le _
  · split
    · exact Nat.zero_le _
    · exact Nat.le_refl _

theorem pushed_eq_singleton (hslash : ∀ s, '/' ∉ crate.encodeSegment s) {decoded segment : Text}
    (h : pushed crate decoded = [segment]) :
    decoded ≠ ['.'] ∧ decoded ≠ ['.', '.'] ∧ crate.encodeSegment decoded = segment := by
  unfold pushed at h
  rw [parts_of_notMem (hslash decoded)] at h
  split at h
  · cases h
  · rename_i hdot
    rw [not_or] at hdot
    split at h
    · cases h
    · exact ⟨hdot.1, hdot.2, List.head_eq_of_cons_eq h⟩

/-- What is pushed in the end, for every path. -/
theorem parts_pushSegments {path path' : Text} {segments : List Text}
    (h : pushSegments crate path segments = some path') :
    ∃ decoded, List.Forall₂ (fun s d => crate.codec.decode s = some d) segments decoded ∧
      parts '/' path' = parts '/' path ++ decoded.flatMap (pushed crate) := by
  induction segments generalizing path with
  | nil =>
    cases h
    exact ⟨[], .nil, (List.append_nil _).symm⟩
  | cons s segments ih =>
    unfold pushSegments at h
    split at h
    · cases h
    · rename_i d hd
      obtain ⟨decoded, hall, hparts⟩ := ih h
      refine ⟨d :: decoded, .cons hd hall, ?_⟩
      rw [hparts, parts_push, List.flatMap_cons, List.append_assoc]

theorem joinParts_eq_root_iff {ps : List Text} (h : ∀ p ∈ ps, p ≠ []) :
    joinParts '/' ps = ['/'] ↔ ps = [] := by
  constructor
  · intro hroot
    cases ps with
    | nil => rfl
    | cons p ps =>
      rw [List.forall_mem_cons] at h
      rw [joinParts, if_neg (List.cons_ne_nil _ _), List.flatMap_cons, List.cons_append,
        List.cons.injEq, List.append_eq_nil_iff] at hroot
      exact absurd hroot.2.1 h.1
  · rintro rfl
    rfl

theorem push_joinParts {ps : List Text} (h : ∀ p ∈ ps, p ≠ []) {decoded : Text}
    (hdot : decoded ≠ ['.'] ∧ decoded ≠ ['.', '.']) :
    crate.push (joinParts '/' ps) decoded = joinParts '/' (ps ++ [crate.encodeSegment decoded]) := by
  unfold UrlCrate.push
  rw [if_neg (not_or.mpr hdot)]
  by_cases hps : ps = []
  · subst hps
    rw [if_pos ((joinParts_eq_root_iff h).mpr rfl)]
    simp [joinParts]
  · rw [if_neg (mt (joinParts_eq_root_iff h).mp hps)]
    simp [joinParts, hps]

/-- Canonical segments are pushed as they are. -/
theorem pushSegments_canonical (ps : List Text) {segments : List Text} (h : ∀ p ∈ ps, p ≠ [])
    (hne : ∀ s ∈ segments, s ≠ []) (hsegments : ∀ s ∈ segments, CanonicalSegment crate s) :
    pushSegments crate (joinParts '/' ps) segments = some (joinParts '/' (ps ++ segments)) := by
  induction segments generalizing ps with
  | nil => rw [List.append_nil]; rfl
  | cons s segments ih =>
    rw [List.forall_mem_cons] at hne hsegments
    obtain ⟨⟨decoded, hdecode, hdot, hdots, hencode⟩, hrest⟩ := hsegments
    unfold pushSegments
    simp only [hdecode]
    rw [push_joinParts h ⟨hdot, hdots⟩, hencode, ih _ _ hne.2 hrest, List.append_assoc]
    · rfl
    · intro p hp
      rcases List.mem_append.mp hp with hp | hp
      · exact h p hp
      · rw [List.mem_singleton.mp hp]
        exact hne.1

/-- **Which base paths come back unchanged.** -/
theorem pushSegments_eq_iff (hslash : ∀ s, '/' ∉ crate.encodeSegment s) (path : Text) :
    pushSegments crate ['/'] (parts '/' path) = some path ↔ CanonicalPath crate path := by
  have hne : ∀ s ∈ parts '/' path, s ≠ [] := fun s hs => (mem_parts hs).1
  have hjoin : (∀ s ∈ parts '/' path, CanonicalSegment crate s) →
      pushSegments crate ['/'] (parts '/' path) = some (joinParts '/' (parts '/' path)) := by
    intro hall
    exact pushSegments_canonical [] nofun hne hall
  constructor
  · intro h
    obtain ⟨decoded, hdecoded, hparts⟩ := parts_pushSegments h
    have hflat : parts '/' path = decoded.flatMap (pushed crate) := hparts
    have hlength : (decoded.flatMap (pushed crate)).length = decoded.length := by
      rw [← hflat]
      exact hdecoded.length_eq
    have hpushed := forall₂_of_flatMap (fun d _ => pushed_length hslash d) hlength
    rw [← hflat] at hpushed
    have hall : ∀ s ∈ parts '/' path, CanonicalSegment crate s := by
      intro s hs
      obtain ⟨d, hdecode, hone⟩ := exists_of_forall₂ hdecoded hpushed s hs
      exact ⟨d, hdecode, pushed_eq_singleton hslash hone⟩
    refine ⟨?_, hall⟩
    rw [hjoin hall] at h
    exact Option.some.inj h
  · rintro ⟨hpath, hall⟩
    rw [hjoin hall, hpath]

/-- The path can be decoded. -/
theorem pushSegments_isSome_iff (path : Text) (segments : List Text) :
    (pushSegments crate path segments).isSome = true ↔
      ∀ s ∈ segments, (crate.codec.decode s).isSome = true := by
  induction segments generalizing path with
  | nil => simp [pushSegments]
  | cons s segments ih =>
    unfold pushSegments
    rw [List.forall_mem_cons]
    cases hdecode : crate.codec.decode s with
    | none => simp
    | some decoded => simp [ih]

end

end Fusen.Nacos
