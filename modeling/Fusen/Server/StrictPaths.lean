import Fusen.Lib.StrictPercent
import Fusen.Server.Routes

/-!
# Strict request paths

`StrictlySplits` is what strict segment decoding means: non-empty segments, each `%`
an escape, decoded to text.  `splitPath` reads a stray `%` as itself, so by
`splitPath_strict_iff` it is strict just for the paths that have none, or that it
rejects for another reason.
-/

namespace Fusen.Server

open Lib

/-- The segments that a path stands for by RFC 3986. -/
def StrictlySplits (path : Text) (segments : List Text) : Prop :=
  ∃ raw : List Text, (∀ s ∈ raw, s ≠ [] ∧ '/' ∉ s) ∧ path = joinParts '/' raw ∧
    List.Forall₂ (fun s t => Decoded (utf8 s) (utf8 t)) raw segments

/-- An empty segment, at the end or before. -/
def HasEmptySegment (path : Text) : Prop :=
  path ≠ ['/'] ∧ (path.getLast? = some '/' ∨ ['/', '/'] <:+: path)

theorem not_hasEmptySegment_joinParts {raw : List Text} (h : ∀ s ∈ raw, s ≠ [] ∧ '/' ∉ s) :
    ¬ HasEmptySegment (joinParts '/' raw) := by
  rintro ⟨hroot, hempty⟩
  have hraw : raw ≠ [] := by
    rintro rfl
    exact hroot rfl
  obtain ⟨hmiddle, hlast⟩ := (nil_notMem_iff_canonical (fun s hs => (h s hs).2) hraw).mp
    fun hnil => (h [] hnil).1 rfl
  exact hempty.elim hlast hmiddle

theorem joinParts_parts_of_slash {path : Text} (hpath : path.head? = some '/')
    (h : ¬ HasEmptySegment path) : joinParts '/' (parts '/' path) = path := by
  obtain ⟨rest, rfl⟩ := List.head?_eq_some_iff.mp hpath
  by_cases hrest : rest = []
  · subst hrest
    rfl
  · have hroot : '/' :: rest ≠ ['/'] := fun heq => hrest (List.cons.inj heq).2
    refine joinParts_parts (fun hmiddle => h ⟨hroot, .inr hmiddle⟩) fun _ hlast => ?_
    exact h ⟨hroot, .inl hlast⟩

/-- The segments are those between the slashes. -/
theorem strictlySplits_iff {path : Text} (hpath : path.head? = some '/') (segments : List Text) :
    StrictlySplits path segments ↔ ¬ HasEmptySegment path ∧
      List.Forall₂ (fun s t => Decoded (utf8 s) (utf8 t)) (parts '/' path) segments := by
  constructor
  · rintro ⟨raw, hraw, rfl, hdecoded⟩
    rw [parts_joinParts hraw]
    exact ⟨not_hasEmptySegment_joinParts hraw, hdecoded⟩
  · rintro ⟨hempty, hdecoded⟩
    exact ⟨parts '/' path, fun s hs => mem_parts hs, (joinParts_parts_of_slash hpath hempty).symm,
      hdecoded⟩

theorem exists_of_forall₂ {R : Text → Text → Prop} {l l' : List Text} (h : List.Forall₂ R l l')
    {s : Text} (hs : s ∈ l) : ∃ t, R s t := by
  induction h with
  | nil => cases hs
  | cons hhead _ ih =>
    rcases List.mem_cons.mp hs with rfl | hs
    · exact ⟨_, hhead⟩
    · exact ih hs

section

variable (codec : PercentCodec)

theorem decodeSegment_eq_ok {s t : Text} :
    decodeSegment codec s = .ok t ↔ codec.decode s = some t := by
  unfold decodeSegment
  cases codec.decode s with
  | none => exact ⟨nofun, nofun⟩
  | some value => simp

theorem splitPath_eq_ok {path : Text} {segments : List Text} :
    splitPath codec path = .ok segments ↔ ¬ HasEmptySegment path ∧
      List.Forall₂ (fun s t => codec.decode s = some t) (parts '/' path) segments := by
  unfold splitPath
  by_cases h : HasEmptySegment path
  · have hcond : path ≠ ['/'] ∧ (path.getLast? = some '/' ∨ ['/', '/'] <:+: path) := h
    rw [if_pos hcond]
    exact ⟨nofun, fun hok => absurd h hok.1⟩
  · have hcond : ¬ (path ≠ ['/'] ∧ (path.getLast? = some '/' ∨ ['/', '/'] <:+: path)) := h
    rw [if_neg hcond, Except.mapM_eq_ok_iff]
    simp only [decodeSegment_eq_ok, h, not_false_eq_true, true_and]

/-- **Paths are split strictly just when no stray `%` survives.** -/
theorem splitPath_strict_iff (hdecode : ∀ s, codec.decode s = utf8Text (unescape (utf8 s)))
    {path : Text} (hpath : path.head? = some '/') :
    (∀ segments, splitPath codec path = .ok segments ↔ StrictlySplits path segments) ↔
      HasEmptySegment path ∨ (∃ s ∈ parts '/' path, utf8Text (unescape (utf8 s)) = none) ∨
        ∀ s ∈ parts '/' path, WellEscaped (utf8 s) := by
  have hlenient (s t : Text) : codec.decode s = some t ↔ unescape (utf8 s) = utf8 t := by
    rw [hdecode, utf8Text_eq_some_iff, eq_comm]
  simp only [splitPath_eq_ok, strictlySplits_iff hpath, and_congr_right_iff, hlenient]
  constructor
  · intro h
    by_contra hnone
    push Not at hnone
    obtain ⟨hempty, htext, s, hs, hstray⟩ := hnone
    have hall : ∀ s ∈ parts '/' path, ∃ t, unescape (utf8 s) = utf8 t := by
      intro s hs
      obtain ⟨t, ht⟩ := Option.ne_none_iff_exists'.mp (htext s hs)
      exact ⟨t, (utf8Text_eq_some_iff.mp ht).symm⟩
    choose! segment hsegment using hall
    have hsegments : List.Forall₂ (fun s t => unescape (utf8 s) = utf8 t) (parts '/' path)
        ((parts '/' path).map segment) := by
      rw [List.forall₂_map_right_iff, List.forall₂_same]
      exact hsegment
    have hstrict := (h _ hempty).mp hsegments
    rw [List.forall₂_map_right_iff, List.forall₂_same] at hstrict
    exact hstray (hstrict s hs).wellEscaped
  · rintro (hempty | ⟨s, hs, hnone⟩ | hwell) segments hclean
    · exact absurd hempty hclean
    · constructor
      · intro h
        obtain ⟨t, ht⟩ := exists_of_forall₂ h hs
        rw [ht, utf8Text_utf8] at hnone
        cases hnone
      · intro h
        obtain ⟨t, ht⟩ := exists_of_forall₂ h hs
        rw [ht.unescape_eq, utf8Text_utf8] at hnone
        cases hnone
    · constructor
      · intro h
        refine ((List.forall₂_and_left _ _).mpr ⟨hwell, h⟩).imp fun s t hst => ?_
        exact decoded_iff.mpr hst
      · exact fun h => h.imp fun s t hst => hst.unescape_eq

end

/-- An escaped slash stays in its segment. -/
theorem splitPath_strict_slash : splitPath .utf8 "/a%2Fb".toList = .ok ["a/b".toList] ∧
    StrictlySplits "/a%2Fb".toList ["a/b".toList] := by
  have hsplit : splitPath .utf8 "/a%2Fb".toList = .ok ["a/b".toList] := by rfl
  refine ⟨hsplit, ((splitPath_strict_iff .utf8 (fun _ => rfl) rfl).mpr (.inr (.inr ?_)) _).mp hsplit⟩
  have hparts : parts '/' "/a%2Fb".toList = ["a%2Fb".toList] := by decide
  have hbytes : utf8 "a%2Fb".toList = [97, 37, 50, 70, 98] := by decide
  rw [hparts, List.forall_mem_singleton, hbytes, wellEscaped_cons (by decide)]
  refine wellEscaped_escape (by decide) (by decide) ?_
  rw [wellEscaped_cons (by decide)]
  exact wellEscaped_nil

/-- A stray `%` is taken for itself, as the path with an escaped one. -/
theorem splitPath_stray : splitPath .utf8 "/%zz".toList = .ok ["%zz".toList] ∧
    splitPath .utf8 "/%25zz".toList = .ok ["%zz".toList] ∧
    ¬ ∀ segments,
      splitPath .utf8 "/%zz".toList = .ok segments ↔ StrictlySplits "/%zz".toList segments := by
  have hstray : splitPath .utf8 "/%zz".toList = .ok ["%zz".toList] := by rfl
  have hescaped : splitPath .utf8 "/%25zz".toList = .ok ["%zz".toList] := by rfl
  refine ⟨hstray, hescaped, fun h => ?_⟩
  obtain ⟨-, hdecoded⟩ := (strictlySplits_iff rfl _).mp ((h _).mp hstray)
  have hparts : parts '/' "/%zz".toList = ["%zz".toList] := by decide
  have hbytes : utf8 "%zz".toList = [37, 122, 122] := by decide
  rw [hparts, List.forall₂_cons, hbytes] at hdecoded
  obtain ⟨hi, lo, tail, heq, hhi, -⟩ := hdecoded.1.wellEscaped [122, 122] (List.suffix_refl _)
  obtain ⟨rfl, -⟩ := List.cons.inj heq
  exact absurd hhi (by decide)

end Fusen.Server
