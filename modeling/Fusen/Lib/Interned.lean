import Fusen.Lib.Assoc
import Fusen.Lib.Machine

/-!
# Maps that hand out one object a key

`entry` is `entry(key).or_insert_with(…)` on a map of shared objects: the first call
for a key allocates an object, the later ones return it.  No object is ever removed,
so over a whole run two calls return the same object exactly for the same key
(`run_entry_eq_iff`).
-/

namespace Lib

/-- Objects by their key.  An object is the number of its allocation. -/
structure Interned (κ : Type) where
  entries : List (κ × Nat)
  allocated : Nat
  keys_nodup : (entries.map Prod.fst).Nodup
  objects_nodup : (entries.map Prod.snd).Nodup
  objects_lt : ∀ e ∈ entries, e.2 < allocated

namespace Interned

variable {κ : Type}

def empty : Interned κ := ⟨[], 0, List.nodup_nil, List.nodup_nil, fun _ h => absurd h (by simp)⟩

variable [DecidableEq κ]

def get (t : Interned κ) (k : κ) : Option Nat := Assoc.get t.entries k

def insert (t : Interned κ) (k : κ) (h : t.get k = none) : Interned κ where
  entries := t.entries ++ [(k, t.allocated)]
  allocated := t.allocated + 1
  keys_nodup := Assoc.nodup_keys_concat_iff.mpr ⟨t.keys_nodup, h⟩
  objects_nodup := by
    rw [List.map_append, List.nodup_append]
    refine ⟨t.objects_nodup, List.nodup_singleton _, ?_⟩
    intro a ha b hb hab
    obtain ⟨e, he, rfl⟩ := List.mem_map.mp ha
    have hlt : e.2 < t.allocated := t.objects_lt e he
    simp only [List.map_cons, List.map_nil, List.mem_singleton] at hb
    omega
  objects_lt := by
    intro e he
    rcases List.mem_append.mp he with hold | hnew
    · exact Nat.lt_succ_of_lt (t.objects_lt e hold)
    · rw [List.mem_singleton.mp hnew]
      exact Nat.lt_succ_self _

def entry (t : Interned κ) (k : κ) : Nat × Interned κ :=
  match h : t.get k with
  | some object => (object, t)
  | none => (t.allocated, t.insert k h)

variable {t : Interned κ} {k k' : κ} {object : Nat}

theorem get_insert (h : t.get k = none) (k' : κ) :
    (t.insert k h).get k' = if k = k' then some t.allocated else t.get k' := by
  show Assoc.get (t.entries ++ [(k, t.allocated)]) k' = _
  rw [Assoc.get_append, Assoc.get_cons, Assoc.get_nil]
  by_cases hk : k = k'
  · rw [if_pos hk, if_pos hk, ← hk, show Assoc.get t.entries k = none from h, Option.none_or]
  · rw [if_neg hk, if_neg hk, Option.or_none]
    rfl

/-- A key without an object gets a new one, and nothing else changes. -/
theorem get_entry (t : Interned κ) (k k' : κ) :
    (t.entry k).2.get k' = if k = k' then some (t.entry k).1 else t.get k' := by
  unfold entry
  split
  · rename_i object h
    split
    · rename_i hk
      exact hk ▸ h
    · rfl
  · rename_i h
    exact get_insert h k'

theorem entry_of_get (h : t.get k = some object) : t.entry k = (object, t) := by
  unfold entry
  split
  · rename_i object' h'
    rw [Option.some.inj (h.symm.trans h')]
  · rename_i h'
    rw [h] at h'
    cases h'

/-- An object once handed out stays that of its key. -/
theorem get_entry_of_get (h : t.get k = some object) (k' : κ) :
    (t.entry k').2.get k = some object := by
  rw [get_entry]
  split
  · rename_i hk
    subst hk
    rw [entry_of_get h]
  · exact h

/-- Two keys with one object are one key. -/
theorem get_inj (h : t.get k = some object) (h' : t.get k' = some object) : k = k' := by
  have hmem : (k, object) ∈ t.entries := Assoc.mem_of_get h
  have hmem' : (k', object) ∈ t.entries := Assoc.mem_of_get h'
  have heq := List.inj_on_of_nodup_map t.objects_nodup hmem hmem' rfl
  exact congrArg Prod.fst heq

/-- While the map keeps the object of `k`, another key asks for it exactly if it is `k`. -/
theorem entry_eq_iff (h : t.get k = some object) (k' : κ) : object = (t.entry k').1 ↔ k = k' := by
  have hget : (t.entry k').2.get k' = some (t.entry k').1 := by rw [get_entry, if_pos rfl]
  constructor
  · intro heq
    exact get_inj (get_entry_of_get h k') (heq ▸ hget)
  · rintro rfl
    rw [entry_of_get h]

/-! ## Runs -/

/-- The map `π` of a machine's state changes only by the entries its events ask for. -/
def Follows {σ ε : Type*} (M : Machine σ ε) (π : σ → Interned κ) (asks : ε → Option κ) : Prop :=
  ∀ s e, π (M.step s e) = match asks e with
    | some k => ((π s).entry k).2
    | none => π s

/-- **Over a run, an object belongs to one key.** -/
theorem run_entry_eq_iff {σ ε : Type*} {M : Machine σ ε} {π : σ → Interned κ}
    {asks : ε → Option κ} (hfollows : Follows M π asks) {e : ε} (he : asks e = some k)
    (es later : List ε) (k' : κ) :
    ((π (M.run es)).entry k).1 = ((π (M.run (es ++ e :: later))).entry k').1 ↔ k = k' := by
  have hstart : (π (M.run (es ++ [e]))).get k = some ((π (M.run es)).entry k).1 := by
    rw [Machine.run_concat, hfollows, he]
    exact (get_entry _ k k).trans (if_pos rfl)
  have hkeep : ∀ s e object, (π s).get k = some object → (π (M.step s e)).get k = some object := by
    intro s e object h
    rw [hfollows]
    split
    · exact get_entry_of_get h _
    · exact h
  have hlater := M.stable (J := fun _ => True) (I := fun s => (π s).get k = some _)
    (fun _ => trivial) (fun s e _ h => hkeep s e _ h) hstart later
  rw [List.append_assoc, List.singleton_append] at hlater
  exact entry_eq_iff hlater k'

end Interned

end Lib
