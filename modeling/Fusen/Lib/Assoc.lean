import Mathlib.Data.List.Induction
import Mathlib.Data.List.Nodup

/-!
# Association lists as finite maps

`get` reads the value of a key; `upsert` changes it in place, or adds the key at
the end.  `toMap` collects pairs, the last of a key winning, and `group` collects
the values of each key in their order.
-/

namespace Lib.Assoc

variable {κ ν : Type*} [DecidableEq κ]

def get (l : List (κ × ν)) (k : κ) : Option ν :=
  match l with
  | [] => none
  | (k', v) :: l => if k' = k then some v else get l k

def upsert (k : κ) (f : Option ν → ν) : List (κ × ν) → List (κ × ν)
  | [] => [(k, f none)]
  | (k', v) :: l => if k' = k then (k', f (some v)) :: l else (k', v) :: upsert k f l

def toMap (l : List (κ × ν)) : List (κ × ν) := l.foldl (fun m e => upsert e.1 (fun _ => e.2) m) []

@[simp] theorem get_nil (k : κ) : get ([] : List (κ × ν)) k = none := rfl

theorem get_cons (k k' : κ) (v : ν) (l : List (κ × ν)) :
    get ((k', v) :: l) k = if k' = k then some v else get l k := rfl

theorem get_upsert (k k' : κ) (f : Option ν → ν) (l : List (κ × ν)) :
    get (upsert k f l) k' = if k' = k then some (f (get l k)) else get l k' := by
  induction l with
  | nil => by_cases h : k = k' <;> simp [upsert, get_cons, h, eq_comm]
  | cons p l ih =>
    obtain ⟨k₀, v⟩ := p
    unfold upsert
    by_cases h₀ : k₀ = k
    · rw [if_pos h₀, get_cons, get_cons, get_cons, if_pos h₀, h₀]
      by_cases h : k = k'
      · simp [h]
      · simp [h, Ne.symm h]
    · rw [if_neg h₀, get_cons, ih, get_cons, get_cons, if_neg h₀]
      by_cases h : k₀ = k'
      · have h' : k' ≠ k := h ▸ h₀
        simp [h, h']
      · simp [h]

theorem get_append (l m : List (κ × ν)) (k : κ) : get (l ++ m) k = (get l k).or (get m k) := by
  induction l with
  | nil => rfl
  | cons p l ih =>
    obtain ⟨k', v⟩ := p
    rw [List.cons_append, get_cons, get_cons, ih]
    split <;> rfl

theorem get_eq_none_iff (l : List (κ × ν)) (k : κ) : get l k = none ↔ k ∉ l.map Prod.fst := by
  induction l with
  | nil => simp
  | cons p l ih =>
    obtain ⟨k', v⟩ := p
    rw [get_cons]
    by_cases h : k' = k
    · simp [h]
    · simp [h, ih, Ne.symm h]

theorem mem_of_get {k : κ} {v : ν} {l : List (κ × ν)} (h : get l k = some v) : (k, v) ∈ l := by
  induction l with
  | nil => simp at h
  | cons p l ih =>
    obtain ⟨k', v'⟩ := p
    rw [get_cons] at h
    by_cases hk : k' = k
    · rw [if_pos hk, Option.some.injEq] at h
      simp [hk, h]
    · rw [if_neg hk] at h
      exact List.mem_cons_of_mem _ (ih h)

/-- With distinct keys, being in the list is being looked up. -/
theorem get_of_mem {k : κ} {v : ν} {l : List (κ × ν)} (hd : (l.map Prod.fst).Nodup)
    (h : (k, v) ∈ l) : get l k = some v := by
  induction l with
  | nil => simp at h
  | cons p l ih =>
    obtain ⟨k', v'⟩ := p
    rw [List.map_cons, List.nodup_cons] at hd
    rw [get_cons]
    rcases List.mem_cons.mp h with heq | hmem
    · cases heq
      rw [if_pos rfl]
    · have hne : k' ≠ k := by
        rintro rfl
        exact hd.1 (List.mem_map.mpr ⟨_, hmem, rfl⟩)
      rw [if_neg hne]
      exact ih hd.2 hmem

theorem get_eq_some_iff {k : κ} {v : ν} {l : List (κ × ν)} (hd : (l.map Prod.fst).Nodup) :
    get l k = some v ↔ (k, v) ∈ l :=
  ⟨mem_of_get, get_of_mem hd⟩

theorem map_fst_upsert (k : κ) (f : Option ν → ν) (l : List (κ × ν)) :
    (upsert k f l).map Prod.fst = if k ∈ l.map Prod.fst then l.map Prod.fst
      else l.map Prod.fst ++ [k] := by
  induction l with
  | nil => simp [upsert]
  | cons p l ih =>
    obtain ⟨k', v⟩ := p
    unfold upsert
    by_cases h : k' = k
    · simp [h]
    · rw [if_neg h, List.map_cons, ih]
      by_cases hm : k ∈ l.map Prod.fst
      · rw [if_pos hm, if_pos (by simp only [List.map_cons, List.mem_cons, hm, or_true])]
        rfl
      · have hne : k ∉ ((k', v) :: l).map Prod.fst := by
          simp only [List.map_cons, List.mem_cons, hm, or_false]
          exact Ne.symm h
        rw [if_neg hm, if_neg hne]
        rfl

theorem nodup_keys_upsert {k : κ} {f : Option ν → ν} {l : List (κ × ν)}
    (h : (l.map Prod.fst).Nodup) : ((upsert k f l).map Prod.fst).Nodup := by
  rw [map_fst_upsert]
  split
  · exact h
  · rename_i hk
    rw [List.nodup_append]
    refine ⟨h, by simp, ?_⟩
    rintro a ha b hb rfl
    rw [List.mem_singleton] at hb
    exact hk (hb ▸ ha)

theorem upsert_of_notMem {k : κ} {f : Option ν → ν} {l : List (κ × ν)} (h : k ∉ l.map Prod.fst) :
    upsert k f l = l ++ [(k, f none)] := by
  induction l with
  | nil => rfl
  | cons p l ih =>
    obtain ⟨k', v⟩ := p
    rw [List.map_cons, List.mem_cons, not_or] at h
    rw [upsert, if_neg (Ne.symm h.1), ih h.2, List.cons_append]

theorem nodup_keys_concat_iff {l : List (κ × ν)} {e : κ × ν} :
    ((l ++ [e]).map Prod.fst).Nodup ↔ (l.map Prod.fst).Nodup ∧ get l e.1 = none := by
  rw [get_eq_none_iff, List.map_append, List.map_singleton, List.nodup_append]
  constructor
  · rintro ⟨hnd, -, hne⟩
    exact ⟨hnd, fun hm => hne e.1 hm e.1 (List.mem_singleton_self _) rfl⟩
  · rintro ⟨hnd, hm⟩
    refine ⟨hnd, List.nodup_singleton _, ?_⟩
    rintro a ha b hb rfl
    rw [List.mem_singleton] at hb
    exact hm (hb ▸ ha)

omit [DecidableEq κ] in
theorem nodup_keys_left {l m : List (κ × ν)} (h : ((l ++ m).map Prod.fst).Nodup) :
    (l.map Prod.fst).Nodup := by
  rw [List.map_append] at h
  exact h.of_append_left

theorem toMap_of_nodup {l : List (κ × ν)} (h : (l.map Prod.fst).Nodup) : toMap l = l := by
  induction l using List.reverseRecOn with
  | nil => rfl
  | append_singleton l e ih =>
    obtain ⟨hnd, hnew⟩ := (nodup_keys_concat_iff).mp h
    rw [get_eq_none_iff] at hnew
    rw [toMap, List.foldl_append, List.foldl_cons, List.foldl_nil, ← toMap, ih hnd,
      upsert_of_notMem hnew]

/-- The entries of `l` over those of `m`. -/
def extend (m l : List (κ × ν)) : List (κ × ν) := l.foldl (fun m e => upsert e.1 (fun _ => e.2) m) m

theorem nodup_keys_extend {m l : List (κ × ν)} (h : (m.map Prod.fst).Nodup) :
    ((extend m l).map Prod.fst).Nodup := by
  induction l generalizing m with
  | nil => exact h
  | cons e l ih => exact ih (nodup_keys_upsert h)

theorem get_extend {m l : List (κ × ν)} (h : (l.map Prod.fst).Nodup) (k : κ) :
    get (extend m l) k = (get l k).or (get m k) := by
  induction l generalizing m with
  | nil => rfl
  | cons e l ih =>
    obtain ⟨k', v⟩ := e
    rw [List.map_cons, List.nodup_cons] at h
    show get (extend (upsert k' (fun _ => v) m) l) k = _
    rw [ih h.2, get_upsert, get_cons]
    by_cases hk : k' = k
    · have hnone : get l k = none := (get_eq_none_iff l k).mpr (hk ▸ h.1)
      rw [hnone, if_pos hk.symm, if_pos hk]
      rfl
    · rw [if_neg (Ne.symm hk), if_neg hk]

/-- Filtering by keys. -/
theorem get_filter {l : List (κ × ν)} (p : κ → Bool) (k : κ) :
    get (l.filter fun e => p e.1) k = if p k then get l k else none := by
  induction l with
  | nil => simp
  | cons e l ih =>
    obtain ⟨k', v⟩ := e
    by_cases hp : p k' = true
    · rw [List.filter_cons_of_pos (by simpa using hp), get_cons, ih, get_cons]
      by_cases hk : k' = k
      · rw [if_pos hk, if_pos hk, if_pos (hk ▸ hp)]
      · rw [if_neg hk, if_neg hk]
    · rw [List.filter_cons_of_neg (by simpa using hp), ih, get_cons]
      by_cases hk : k' = k
      · rw [if_neg (hk ▸ hp), if_neg (hk ▸ hp)]
      · rw [if_neg hk]

/-- The entries with a value. -/
def present (l : List (κ × Option ν)) : List (κ × ν) := l.filterMap fun e => e.2.map (e.1, ·)

omit [DecidableEq κ] in
theorem keys_present_sublist (l : List (κ × Option ν)) :
    ((present l).map Prod.fst).Sublist (l.map Prod.fst) := by
  induction l with
  | nil => exact .slnil
  | cons e l ih =>
    obtain ⟨k, v⟩ := e
    cases v with
    | none => exact ih.cons k
    | some v => exact ih.cons_cons k

theorem get_present {l : List (κ × Option ν)} (h : (l.map Prod.fst).Nodup) (k : κ) :
    get (present l) k = (get l k).join := by
  induction l with
  | nil => rfl
  | cons e l ih =>
    obtain ⟨k', v⟩ := e
    rw [List.map_cons, List.nodup_cons] at h
    rw [get_cons]
    cases v with
    | some v =>
      show get ((k', v) :: present l) k = _
      rw [get_cons, ih h.2]
      split <;> rfl
    | none =>
      show get (present l) k = _
      rw [ih h.2]
      by_cases hk : k' = k
      · rw [if_pos hk, (get_eq_none_iff l k).mpr (hk ▸ h.1)]
        rfl
      · rw [if_neg hk]

/-! ## Grouping -/

def group (l : List (κ × ν)) : List (κ × List ν) :=
  l.foldl (fun m e => upsert e.1 (fun seen => seen.getD [] ++ [e.2]) m) []

/-- The values of a key, in order. -/
def valuesOf (l : List (κ × ν)) (k : κ) : List ν := (l.filter fun e => e.1 = k).map Prod.snd

@[simp] theorem valuesOf_nil (k : κ) : valuesOf ([] : List (κ × ν)) k = [] := rfl

theorem valuesOf_cons (e : κ × ν) (l : List (κ × ν)) (k : κ) :
    valuesOf (e :: l) k = if e.1 = k then e.2 :: valuesOf l k else valuesOf l k := by
  unfold valuesOf
  by_cases h : e.1 = k <;> simp [h]

theorem valuesOf_append (l m : List (κ × ν)) (k : κ) :
    valuesOf (l ++ m) k = valuesOf l k ++ valuesOf m k := by
  simp [valuesOf]

theorem valuesOf_eq_nil_iff (l : List (κ × ν)) (k : κ) :
    valuesOf l k = [] ↔ k ∉ l.map Prod.fst := by
  induction l with
  | nil => simp
  | cons e l ih =>
    rw [valuesOf_cons, List.map_cons, List.mem_cons, not_or]
    by_cases h : e.1 = k
    · simp [h]
    · rw [if_neg h, ih]
      exact ⟨fun hm => ⟨Ne.symm h, hm⟩, fun hm => hm.2⟩

theorem valuesOf_map_const (k k' : κ) (vs : List ν) :
    valuesOf (vs.map fun v => (k, v)) k' = if k = k' then vs else [] := by
  induction vs with
  | nil => simp
  | cons v vs ih =>
    rw [List.map_cons, valuesOf_cons, ih]
    split <;> rfl

theorem valuesOf_filter_key (keep : κ → Bool) (l : List (κ × ν)) (k : κ) :
    valuesOf (l.filter fun e => keep e.1) k = if keep k then valuesOf l k else [] := by
  induction l with
  | nil => simp
  | cons e l ih =>
    rw [List.filter_cons, valuesOf_cons]
    by_cases hk : e.1 = k
    · subst hk
      by_cases hkeep : keep e.1 <;> simp [hkeep, valuesOf_cons, ih]
    · by_cases hkeep : keep e.1 <;> simp [hkeep, valuesOf_cons, hk, ih]

theorem valuesOf_flatMap {α : Type*} (f : α → List (κ × ν)) (xs : List α) (k : κ) :
    valuesOf (xs.flatMap f) k = xs.flatMap fun x => valuesOf (f x) k := by
  induction xs with
  | nil => rfl
  | cons x xs ih => rw [List.flatMap_cons, valuesOf_append, ih, List.flatMap_cons]

/-- With distinct keys, only the entry of the key contributes to its values. -/
theorem valuesOf_flatMap_entries {μ : Type*} (f : μ → List ν) {l : List (κ × μ)}
    (hd : (l.map Prod.fst).Nodup) (k : κ) :
    valuesOf (l.flatMap fun e => (f e.2).map fun v => (e.1, v)) k =
      ((get l k).map f).getD [] := by
  induction l with
  | nil => rfl
  | cons e l ih =>
    rw [List.map_cons, List.nodup_cons] at hd
    rw [List.flatMap_cons, valuesOf_append, valuesOf_map_const, ih hd.2, get_cons]
    by_cases h : e.1 = k
    · have hnone : get l k = none := by
        rw [get_eq_none_iff]
        exact h ▸ hd.1
      rw [if_pos h, if_pos h, hnone]
      simp
    · rw [if_neg h, if_neg h, List.nil_append]

theorem flatMap_eq_of_unique {α β : Type*} {f : α → List β} {xs : List α} {x : α}
    (hd : xs.Nodup) (hx : x ∈ xs) (h : ∀ y ∈ xs, y ≠ x → f y = []) : xs.flatMap f = f x := by
  induction xs with
  | nil => simp at hx
  | cons y xs ih =>
    rw [List.nodup_cons] at hd
    rw [List.forall_mem_cons] at h
    rw [List.flatMap_cons]
    by_cases hy : y = x
    · subst hy
      have hrest : xs.flatMap f = [] := by
        rw [List.flatMap_eq_nil_iff]
        exact fun z hz => h.2 z hz (fun he => hd.1 (he ▸ hz))
      rw [hrest, List.append_nil]
    · have hmem : x ∈ xs := (List.mem_cons.mp hx).resolve_left (Ne.symm hy)
      rw [h.1 hy, List.nil_append, ih hd.2 hmem h.2]

theorem group_concat (l : List (κ × ν)) (e : κ × ν) :
    group (l ++ [e]) = upsert e.1 (fun seen => seen.getD [] ++ [e.2]) (group l) := by
  simp [group]

/-- A key is grouped iff it has a value, with all of them. -/
theorem get_group (l : List (κ × ν)) (k : κ) :
    get (group l) k = if valuesOf l k = [] then none else some (valuesOf l k) := by
  induction l using List.reverseRecOn with
  | nil => rfl
  | append_singleton l e ih =>
    rw [group_concat, get_upsert, valuesOf_append, valuesOf_cons, valuesOf_nil]
    by_cases h : e.1 = k
    · subst h
      rw [if_pos rfl, if_pos rfl, ih]
      by_cases hn : valuesOf l e.1 = [] <;> simp [hn]
    · rw [if_neg (Ne.symm h), if_neg h, List.append_nil, ih]

theorem getD_get_group (l : List (κ × ν)) (k : κ) : (get (group l) k).getD [] = valuesOf l k := by
  rw [get_group]
  split
  · rename_i h
    rw [h]
    rfl
  · rfl

theorem nodup_keys_group (l : List (κ × ν)) : ((group l).map Prod.fst).Nodup := by
  induction l using List.reverseRecOn with
  | nil => simp [group]
  | append_singleton l e ih =>
    rw [group_concat]
    exact nodup_keys_upsert ih

theorem get_filter_key (p : κ → Bool) (l : List (κ × ν)) (k : κ) :
    get (l.filter fun e => p e.1) k = if p k then get l k else none := by
  induction l with
  | nil => simp
  | cons e l ih =>
    obtain ⟨k', v⟩ := e
    rw [List.filter_cons]
    by_cases hk : k' = k
    · subst hk
      by_cases hp : p k' <;> simp [hp, get_cons, ih]
    · by_cases hp : p k' <;> simp [hp, get_cons, hk, ih]

theorem get_map_snd {μ : Type*} (f : ν → μ) (l : List (κ × ν)) (k : κ) :
    get (l.map fun e => (e.1, f e.2)) k = (get l k).map f := by
  induction l with
  | nil => rfl
  | cons e l ih =>
    rw [List.map_cons, get_cons, ih]
    obtain ⟨k', v⟩ := e
    rw [get_cons]
    split <;> rfl

/-! ## Removing a key -/

def remove (k : κ) (l : List (κ × ν)) : List (κ × ν) := l.filter fun e => e.1 ≠ k

theorem get_remove (l : List (κ × ν)) (k k' : κ) :
    get (remove k l) k' = if k' = k then none else get l k' := by
  have h := get_filter_key (fun k' => decide (k' ≠ k)) l k'
  rw [remove, h]
  by_cases hk : k' = k <;> simp [hk]

omit [DecidableEq κ] in
theorem nodup_keys_filter {p : κ × ν → Bool} {l : List (κ × ν)} (h : (l.map Prod.fst).Nodup) :
    ((l.filter p).map Prod.fst).Nodup :=
  h.sublist (List.filter_sublist.map _)

/-- How many values satisfy `p`, with the value of one key apart. -/
theorem countP_eq_remove (p : ν → Bool) {l : List (κ × ν)} (h : (l.map Prod.fst).Nodup) (k : κ) :
    l.countP (fun e => p e.2) =
      (remove k l).countP (fun e => p e.2) + if (get l k).any p then 1 else 0 := by
  induction l with
  | nil => rfl
  | cons e l ih =>
    obtain ⟨k', v⟩ := e
    rw [List.map_cons, List.nodup_cons] at h
    have hl := ih h.2
    by_cases hk : k' = k
    · subst hk
      have hrest : remove k' l = l := by
        refine List.filter_eq_self.mpr fun e he => ?_
        have hne : e.1 ≠ k' := fun heq => h.1 (List.mem_map.mpr ⟨e, he, heq⟩)
        simpa using hne
      rw [get_cons, if_pos rfl, List.countP_cons, remove, List.filter_cons_of_neg (by simp)]
      rw [show l.filter (fun e => decide (e.1 ≠ k')) = l from hrest]
      rfl
    · rw [get_cons, if_neg hk, List.countP_cons, remove, List.filter_cons_of_pos (by simpa using hk),
        List.countP_cons]
      have : (l.filter fun e => decide (e.1 ≠ k)) = remove k l := rfl
      rw [this]
      omega

end Lib.Assoc
