import Fusen.Lib.Assoc
import Mathlib.Data.List.Forall2

/-!
# Tries with wildcard edges

A pattern is a sequence of symbols in which `none` accepts any symbol.  `find`
looks a key up by trying the edge labelled with the next symbol before the
wildcard edge, going back when the first leads nowhere.

`lookup_insert` describes a trie by what it holds under each pattern, and
`find_eq_some_iff` describes `find` by that alone: it returns the value of the
pattern that accepts the key and is preferred over every other one that does.
-/

namespace Lib

abbrev Pattern (κ : Type*) := List (Option κ)

namespace Pattern

variable {κ : Type*}

def Accepts (p : Pattern κ) (ks : List κ) : Prop :=
  List.Forall₂ (fun o k => o = none ∨ o = some k) p ks

/-- The symbols of an accepted key that stand at wildcards. -/
def captures (p : Pattern κ) (ks : List κ) : List κ :=
  (p.zip ks).filterMap fun x => if x.1.isNone then some x.2 else none

/-- Where they first differ, `p` has a symbol and `q` a wildcard. -/
def Prefers (p q : Pattern κ) : Prop :=
  ∃ pre k p' q', p = pre ++ some k :: p' ∧ q = pre ++ none :: q'

@[simp] theorem accepts_nil_iff (ks : List κ) : Accepts [] ks ↔ ks = [] := by
  simp [Accepts]

@[simp] theorem accepts_nil_key_iff (p : Pattern κ) : Accepts p [] ↔ p = [] := by
  simp [Accepts]

@[simp] theorem accepts_cons_iff (o : Option κ) (p : Pattern κ) (k : κ) (ks : List κ) :
    Accepts (o :: p) (k :: ks) ↔ (o = none ∨ o = some k) ∧ Accepts p ks := by
  simp [Accepts]

theorem accepts_cons_key {p : Pattern κ} {k : κ} {ks : List κ} (h : Accepts p (k :: ks)) :
    ∃ o p', p = o :: p' ∧ (o = none ∨ o = some k) ∧ Accepts p' ks := by
  cases p with
  | nil => simp at h
  | cons o p' => exact ⟨o, p', rfl, (accepts_cons_iff o p' k ks).mp h⟩

@[simp] theorem captures_nil (ks : List κ) : captures ([] : Pattern κ) ks = [] := rfl

@[simp] theorem captures_some (l : κ) (p : Pattern κ) (k : κ) (ks : List κ) :
    captures (some l :: p) (k :: ks) = captures p ks := rfl

@[simp] theorem captures_none (p : Pattern κ) (k : κ) (ks : List κ) :
    captures (none :: p) (k :: ks) = k :: captures p ks := rfl

theorem Prefers.cons {p q : Pattern κ} (o : Option κ) (h : Prefers p q) :
    Prefers (o :: p) (o :: q) := by
  obtain ⟨pre, k, p', q', rfl, rfl⟩ := h
  exact ⟨o :: pre, k, p', q', rfl, rfl⟩

theorem Prefers.head (k : κ) (p q : Pattern κ) : Prefers (some k :: p) (none :: q) :=
  ⟨[], k, p, q, rfl, rfl⟩

theorem Prefers.asymm {p q : Pattern κ} (h : Prefers p q) : ¬ Prefers q p := by
  obtain ⟨pre, k, p', q', rfl, rfl⟩ := h
  rintro ⟨pre', k', p'', q'', hq, hp⟩
  induction pre generalizing pre' with
  | nil =>
    cases pre' with
    | nil => simp at hq
    | cons o' pre' =>
      simp only [List.nil_append, List.cons_append, List.cons.injEq] at hq hp
      rw [← hq.1] at hp
      cases hp.1
  | cons o pre ih =>
    cases pre' with
    | nil =>
      simp only [List.nil_append, List.cons_append, List.cons.injEq] at hq hp
      rw [hq.1] at hp
      cases hp.1
    | cons o' pre' =>
      simp only [List.cons_append, List.cons.injEq] at hq hp
      exact ih pre' hq.2 hp.2

/-- Two patterns that accept the same key are compared. -/
theorem eq_or_prefers {p q : Pattern κ} {ks : List κ} (hp : Accepts p ks) (hq : Accepts q ks) :
    p = q ∨ Prefers p q ∨ Prefers q p := by
  induction ks generalizing p q with
  | nil =>
    rw [accepts_nil_key_iff] at hp hq
    exact .inl (hp.trans hq.symm)
  | cons k ks ih =>
    obtain ⟨o, p', rfl, ho, hp'⟩ := accepts_cons_key hp
    obtain ⟨o', q', rfl, ho', hq'⟩ := accepts_cons_key hq
    by_cases heq : o = o'
    · subst heq
      rcases ih hp' hq' with rfl | h | h
      · exact .inl rfl
      · exact .inr (.inl (h.cons o))
      · exact .inr (.inr (h.cons o))
    · rcases ho with rfl | rfl
      · rcases ho' with rfl | rfl
        · exact absurd rfl heq
        · exact .inr (.inr (.head k q' p'))
      · rcases ho' with rfl | rfl
        · exact .inr (.inl (.head k p' q'))
        · exact absurd rfl heq

end Pattern

inductive WildTrie (κ β : Type*)
  | node (literals : List (κ × WildTrie κ β)) (wildcard : Option (WildTrie κ β)) (leaf : Option β)

namespace WildTrie

variable {κ β : Type*}

def empty : WildTrie κ β := .node [] none none

def literals : WildTrie κ β → List (κ × WildTrie κ β)
  | .node l _ _ => l

def wildcard : WildTrie κ β → Option (WildTrie κ β)
  | .node _ w _ => w

def leaf : WildTrie κ β → Option β
  | .node _ _ b => b

variable [DecidableEq κ]

/-- The value held under exactly this pattern. -/
def lookup : Pattern κ → WildTrie κ β → Option β
  | [], t => t.leaf
  | some k :: p, t => (Assoc.get t.literals k).bind (lookup p)
  | none :: p, t => t.wildcard.bind (lookup p)

/-- `none` when the pattern already has a value. -/
def insert : Pattern κ → β → WildTrie κ β → Option (WildTrie κ β)
  | [], b, t => if t.leaf.isSome then none else some (.node t.literals t.wildcard (some b))
  | some k :: p, b, t =>
    (insert p b ((Assoc.get t.literals k).getD empty)).map fun child =>
      .node (Assoc.upsert k (fun _ => child) t.literals) t.wildcard t.leaf
  | none :: p, b, t =>
    (insert p b (t.wildcard.getD empty)).map fun child => .node t.literals (some child) t.leaf

/-- The value found for a key, with the symbols that went through wildcard edges. -/
def find : List κ → WildTrie κ β → Option (β × List κ)
  | [], t => t.leaf.map fun b => (b, [])
  | k :: ks, t =>
    match (Assoc.get t.literals k).bind (find ks) with
    | some r => some r
    | none => (t.wildcard.bind (find ks)).map fun r => (r.1, k :: r.2)

@[simp] theorem lookup_empty (p : Pattern κ) : lookup p (empty : WildTrie κ β) = none := by
  cases p with
  | nil => rfl
  | cons o p => cases o <;> rfl

theorem lookup_getD_empty (p : Pattern κ) (o : Option (WildTrie κ β)) :
    lookup p (o.getD empty) = o.bind (lookup p) := by
  cases o <;> simp

/-! ## Insertion -/

theorem insert_isSome_iff (p : Pattern κ) (b : β) (t : WildTrie κ β) :
    (insert p b t).isSome ↔ lookup p t = none := by
  induction p generalizing t with
  | nil => cases h : t.leaf <;> simp [insert, lookup, h]
  | cons o p ih =>
    cases o with
    | none => rw [insert, Option.isSome_map, ih, lookup_getD_empty, lookup]
    | some k => rw [insert, Option.isSome_map, ih, lookup_getD_empty, lookup]

/-- After an insertion the trie holds the new value and what it held before. -/
theorem lookup_insert {p : Pattern κ} {b : β} {t t' : WildTrie κ β} (h : insert p b t = some t')
    (q : Pattern κ) : lookup q t' = if q = p then some b else lookup q t := by
  induction p generalizing t t' q with
  | nil =>
    unfold insert at h
    split at h
    · cases h
    · cases h
      cases q with
      | nil => rfl
      | cons o q => cases o <;> rfl
  | cons o p ih =>
    cases o with
    | none =>
      obtain ⟨child, hc, rfl⟩ := Option.map_eq_some_iff.mp h
      cases q with
      | nil => rfl
      | cons o q =>
        cases o with
        | some k => rfl
        | none =>
          show lookup q child = _
          rw [ih hc, lookup_getD_empty]
          simp [lookup]
    | some k =>
      obtain ⟨child, hc, rfl⟩ := Option.map_eq_some_iff.mp h
      cases q with
      | nil => rfl
      | cons o q =>
        cases o with
        | none => rfl
        | some k' =>
          simp only [lookup, literals, Assoc.get_upsert]
          by_cases hk : k' = k
          · subst hk
            rw [if_pos rfl, Option.bind_some, ih hc, lookup_getD_empty]
            simp [literals]
          · simp [hk]

/-! ## Search -/

/-- When nothing is found, no pattern with a value accepts the key. -/
theorem lookup_eq_none_of_find {ks : List κ} {t : WildTrie κ β} (h : find ks t = none)
    {q : Pattern κ} (hq : q.Accepts ks) : lookup q t = none := by
  induction ks generalizing t q with
  | nil =>
    rw [(Pattern.accepts_nil_key_iff q).mp hq]
    simpa [find, lookup] using h
  | cons k ks ih =>
    unfold find at h
    split at h
    · cases h
    · rename_i hlit
      obtain ⟨o, q', rfl, ho, hq'⟩ := Pattern.accepts_cons_key hq
      rcases ho with rfl | rfl
      · rw [Option.map_eq_none_iff, Option.bind_eq_none_iff] at h
        rw [lookup, Option.bind_eq_none_iff]
        exact fun child hw => ih (h child hw) hq'
      · rw [Option.bind_eq_none_iff] at hlit
        rw [lookup, Option.bind_eq_none_iff]
        exact fun child hl => ih (hlit child hl) hq'

/-- Found values are those of accepting patterns, and no other accepting pattern is
preferred. -/
theorem find_sound {ks : List κ} {t : WildTrie κ β} {b : β} {c : List κ}
    (h : find ks t = some (b, c)) : ∃ p, lookup p t = some b ∧ p.Accepts ks ∧
      c = p.captures ks ∧ ∀ q, (lookup q t).isSome → q.Accepts ks → q = p ∨ p.Prefers q := by
  induction ks generalizing t b c with
  | nil =>
    obtain ⟨b', hb, hc⟩ := Option.map_eq_some_iff.mp h
    cases hc
    exact ⟨[], hb, by simp, rfl, fun q _ hq => .inl (by simpa using hq)⟩
  | cons k ks ih =>
    unfold find at h
    split at h
    · -- through the literal edge
      rename_i r hr
      cases h
      obtain ⟨child, hl, hf⟩ := Option.bind_eq_some_iff.mp hr
      obtain ⟨p, hp, hacc, hcap, hbest⟩ := ih hf
      refine ⟨some k :: p, by simp [lookup, hl, hp], by simp [hacc], hcap, ?_⟩
      intro q hq hqa
      obtain ⟨o, q', rfl, ho, hqa'⟩ := Pattern.accepts_cons_key hqa
      rcases ho with rfl | rfl
      · exact .inr (Pattern.Prefers.head k p q')
      · simp only [lookup, hl, Option.bind_some] at hq
        rcases hbest q' hq hqa' with rfl | hpref
        · exact .inl rfl
        · exact .inr (hpref.cons _)
    · -- back from the literal edge: no pattern behind it accepts
      rename_i hnone
      obtain ⟨⟨b', c'⟩, hr, heq⟩ := Option.map_eq_some_iff.mp h
      cases heq
      obtain ⟨child, hw, hf⟩ := Option.bind_eq_some_iff.mp hr
      obtain ⟨p, hp, hacc, hcap, hbest⟩ := ih hf
      refine ⟨none :: p, by simp [lookup, hw, hp], by simp [hacc], by simp [hcap], ?_⟩
      intro q hq hqa
      obtain ⟨o, q', rfl, ho, hqa'⟩ := Pattern.accepts_cons_key hqa
      rcases ho with rfl | rfl
      · simp only [lookup, hw, Option.bind_some] at hq
        rcases hbest q' hq hqa' with rfl | hpref
        · exact .inl rfl
        · exact .inr (hpref.cons _)
      · obtain ⟨b'', hb''⟩ := Option.isSome_iff_exists.mp hq
        obtain ⟨child', hl, hq'⟩ := Option.bind_eq_some_iff.mp hb''
        rw [Option.bind_eq_none_iff] at hnone
        rw [lookup_eq_none_of_find (hnone child' hl) hqa'] at hq'
        cases hq'

/-- **What `find` returns**, in terms of the values held alone. -/
theorem find_eq_some_iff (ks : List κ) (t : WildTrie κ β) (b : β) (c : List κ) :
    find ks t = some (b, c) ↔ ∃ p, lookup p t = some b ∧ p.Accepts ks ∧ c = p.captures ks ∧
      ∀ q, (lookup q t).isSome → q.Accepts ks → q = p ∨ p.Prefers q := by
  refine ⟨find_sound, ?_⟩
  rintro ⟨p, hp, hacc, rfl, hbest⟩
  cases h : find ks t with
  | none =>
    rw [lookup_eq_none_of_find h hacc] at hp
    cases hp
  | some r =>
    obtain ⟨b', c'⟩ := r
    obtain ⟨p', hp', hacc', rfl, hbest'⟩ := find_sound h
    -- two best patterns are the same one
    have heq : p' = p := by
      rcases hbest p' (by simp [hp']) hacc' with heq | hpref
      · exact heq
      · rcases hbest' p (by simp [hp]) hacc with heq | hpref'
        · exact heq.symm
        · exact absurd hpref' hpref.asymm
    subst heq
    rw [hp] at hp'
    cases hp'
    rfl

theorem find_isSome_iff (ks : List κ) (t : WildTrie κ β) :
    (find ks t).isSome ↔ ∃ p, (lookup p t).isSome ∧ p.Accepts ks := by
  constructor
  · intro h
    obtain ⟨⟨b, c⟩, hr⟩ := Option.isSome_iff_exists.mp h
    obtain ⟨p, hp, hacc, -, -⟩ := find_sound hr
    exact ⟨p, by simp [hp], hacc⟩
  · rintro ⟨p, hp, hacc⟩
    by_contra hnone
    rw [Option.not_isSome_iff_eq_none] at hnone
    simp [lookup_eq_none_of_find hnone hacc] at hp

/-- Tries that hold the same values find the same. -/
theorem find_congr {t t' : WildTrie κ β} (h : ∀ p, lookup p t = lookup p t') (ks : List κ) :
    find ks t = find ks t' := by
  apply Option.ext
  rintro ⟨b, c⟩
  rw [find_eq_some_iff, find_eq_some_iff]
  simp only [h]

end WildTrie

end Lib
