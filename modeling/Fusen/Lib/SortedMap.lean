import Mathlib.Data.List.Sort

/-!
# Maps sorted by key

A map as the list of its entries in the order of their keys.
-/

namespace Lib.SortedMap

variable {κ ν : Type} [LinearOrder κ]

def insert (k : κ) (v : ν) : List (κ × ν) → List (κ × ν)
  | [] => [(k, v)]
  | (k', v') :: l =>
    if k < k' then (k, v) :: (k', v') :: l
    else if k = k' then (k, v) :: l
    else (k', v') :: insert k v l

def insertAll (l entries : List (κ × ν)) : List (κ × ν) :=
  entries.foldl (fun l e => insert e.1 e.2 l) l

def Sorted (l : List (κ × ν)) : Prop := (l.map Prod.fst).Pairwise (· < ·)

theorem insert_ne_nil (k : κ) (v : ν) (l : List (κ × ν)) : insert k v l ≠ [] := by
  cases l with
  | nil => exact List.cons_ne_nil _ _
  | cons e l =>
    unfold insert
    split
    · exact List.cons_ne_nil _ _
    · split <;> exact List.cons_ne_nil _ _

theorem insertAll_eq_nil_iff {entries : List (κ × ν)} : insertAll [] entries = [] ↔ entries = [] := by
  have hgrow (entries l : List (κ × ν)) (hl : l ≠ []) : insertAll l entries ≠ [] := by
    induction entries generalizing l with
    | nil => exact hl
    | cons e entries ih => exact ih _ (insert_ne_nil _ _ _)
  cases entries with
  | nil => exact Iff.rfl
  | cons e entries =>
    exact ⟨fun h => (hgrow entries _ (insert_ne_nil _ _ _) h).elim, nofun⟩

/-- A new key is added and nothing else changes. -/
theorem perm_insert {k : κ} {v : ν} {l : List (κ × ν)} (h : k ∉ l.map Prod.fst) :
    (insert k v l).Perm ((k, v) :: l) := by
  induction l with
  | nil => exact List.Perm.refl _
  | cons e l ih =>
    rw [List.map_cons, List.mem_cons, not_or] at h
    unfold insert
    split
    · exact List.Perm.refl _
    · rw [if_neg h.1]
      exact ((ih h.2).cons e).trans (List.Perm.swap _ _ _)

theorem mem_keys_insert {k k' : κ} {v : ν} {l : List (κ × ν)} :
    k' ∈ (insert k v l).map Prod.fst ↔ k' = k ∨ k' ∈ l.map Prod.fst := by
  induction l with
  | nil => simp [insert]
  | cons e l ih =>
    unfold insert
    split
    · rw [List.map_cons, List.mem_cons]
    · split
      · rename_i heq
        simp only [List.map_cons, List.mem_cons, heq, or_self_left]
      · rw [List.map_cons, List.mem_cons, ih, List.map_cons, List.mem_cons]
        exact or_left_comm

theorem insertAll_perm {entries : List (κ × ν)} (h : (entries.map Prod.fst).Nodup) :
    (insertAll [] entries).Perm entries := by
  have hgrow (l : List (κ × ν)) (hl : (entries.map Prod.fst).Disjoint (l.map Prod.fst)) :
      (insertAll l entries).Perm (l ++ entries) := by
    induction entries generalizing l with
    | nil => rw [List.append_nil]; exact .refl _
    | cons e entries ih =>
      rw [List.map_cons, List.nodup_cons] at h
      rw [List.map_cons, List.disjoint_cons_left] at hl
      refine (ih h.2 (insert e.1 e.2 l) fun k hk hk' => ?_).trans ?_
      · rcases (mem_keys_insert).mp hk' with rfl | hk'
        · exact h.1 hk
        · exact hl.2 hk hk'
      · exact ((perm_insert hl.1).append_right entries).trans List.perm_middle.symm
  exact hgrow [] (List.disjoint_nil_right _)

theorem Sorted.insert {l : List (κ × ν)} (h : Sorted l) (k : κ) (v : ν) :
    Sorted (SortedMap.insert k v l) := by
  induction l with
  | nil => exact List.pairwise_singleton _ _
  | cons e l ih =>
    obtain ⟨hfirst, hrest⟩ := List.pairwise_cons.mp h
    unfold SortedMap.insert
    split
    · rename_i hlt
      refine List.pairwise_cons.mpr ⟨fun k' hk' => ?_, h⟩
      rcases List.mem_cons.mp hk' with rfl | hk'
      · exact hlt
      · exact hlt.trans (hfirst k' hk')
    · split
      · rename_i heq
        subst heq
        exact List.pairwise_cons.mpr ⟨hfirst, hrest⟩
      · rename_i hlt hne
        refine List.pairwise_cons.mpr ⟨fun k' hk' => ?_, ih hrest⟩
        rcases (mem_keys_insert).mp hk' with rfl | hk'
        · exact lt_of_le_of_ne (not_lt.mp hlt) (Ne.symm hne)
        · exact hfirst k' hk'

theorem sorted_insertAll (entries : List (κ × ν)) : Sorted (insertAll [] entries) := by
  have hgrow (l : List (κ × ν)) (hl : Sorted l) : Sorted (insertAll l entries) := by
    induction entries generalizing l with
    | nil => exact hl
    | cons e entries ih => exact ih _ (hl.insert e.1 e.2)
  exact hgrow [] List.Pairwise.nil

/-- The order of insertion leaves no trace. -/
theorem Sorted.eq_of_perm {l l' : List (κ × ν)} (h : Sorted l) (h' : Sorted l')
    (hperm : l.Perm l') : l = l' := by
  have hanti : ∀ a ∈ l, ∀ b ∈ l, a.1 < b.1 → b.1 < a.1 → a = b :=
    fun a _ b _ hab hba => absurd (hab.trans hba) (lt_irrefl _)
  exact hperm.eq_of_pairwise (fun a b ha hb => hanti a ha b (hperm.mem_iff.mpr hb))
    (List.pairwise_map.mp h) (List.pairwise_map.mp h')

end Lib.SortedMap
