import Fusen.Config.HotRuns

/-!
# A typed view keeps the last good value

`hot_lastGood`: what a view shows after any run, how it changes, and what a close
leaves of it.  `change_after_close`: a view whose task has already taken a document
still publishes it after the close has completed.
-/

namespace Fusen.Config

open Lib Fusen.Runtime

variable {T : Type} {parse : ConfigDocument → Except ConfigError T}

/-! ## One view -/

namespace View

/-- The task waits and has seen the latest version. -/
def Quiet (v : View T) (p : Publisher) : Prop := v.task = .select ∧ v.seen = p.sender.version

/-- The task has parsed a document whose value it has not sent yet. -/
def pending (v : View T) : Nat :=
  match v.task with
  | .accepted _ _ | .sending _ _ => 1
  | _ => 0

/-- `v'` shows a later value than `v`, or the same. -/
def Later (v v' : View T) : Prop :=
  v.sender.value.revision < v'.sender.value.revision ∨ v'.sender.value = v.sender.value

theorem Later.trans {u v w : View T} (h : u.Later v) (h' : v.Later w) : u.Later w := by
  rcases h with h | h
  · rcases h' with h' | h'
    · exact .inl (h.trans h')
    · exact .inl (by rwa [h'])
  · rcases h' with h' | h'
    · exact .inl (by rwa [h] at h')
    · exact .inr (h'.trans h)

variable {p : Publisher} {v v' : View T}

/-- A quiet view of an open source shows what the latest document says. -/
theorem Inv.quiet (h : v.Inv parse p) (hp : p.Inv) (hopen : p.closed = false) (hq : v.Quiet p) :
    ∃ d, p.sender.value.document = some d ∧
      (∀ x, parse d = .ok x → v.sender.value.value = x ∧ v.errorSender.value = none) ∧
      ∀ e, parse d = .error e →
        lastGood parse v.taken = some v.sender.value.value ∧ v.errorSender.value = some e := by
  obtain ⟨htask, hseen⟩ := hq
  obtain ⟨d, hd⟩ := Option.isSome_iff_exists.mp h.document
  have hhead := (h.latest hseen (hp.closed.trans hopen)).trans hd
  obtain ⟨taken, htaken⟩ := List.head?_eq_some_iff.mp hhead
  have hinv := h.task
  unfold TaskInv at hinv
  rw [htask] at hinv
  obtain ⟨-, hgood, herror⟩ := hinv
  refine ⟨d, hd, fun x hx => ?_, fun e he => ⟨hgood, ?_⟩⟩
  · rw [htaken, lastGood_cons_ok hx, Option.some.injEq] at hgood
    rw [htaken, lastError_cons_ok hx] at herror
    exact ⟨hgood.symm, herror⟩
  · rw [herror, htaken, lastError_cons_error he]

/-- A view that is not quiet goes on, unless nobody holds it or its revision is used up. -/
theorem Inv.moves (h : v.Inv parse p) (hopen : p.closed = false) (hheld : v.held = true)
    (hrevision : v.revision + 1 < Usize.size) (hq : ¬ v.Quiet p) :
    (v.next parse p.sender).isSome := by
  unfold View.next
  split
  · rename_i htask
    rw [if_pos]
    · rfl
    · unfold Watch.changed
      simpa using fun hseen => hq ⟨htask, hseen⟩
  · rfl
  · rfl
  · rfl
  · rfl
  · rename_i htask
    rcases h.ended htask with hc | hh | hr
    · rw [hc] at hopen
      cases hopen
    · rw [hh] at hheld
      cases hheld
    · omega

/-- What a step of the task may show: the next revision, with the parse of the document
it took last. -/
theorem Inv.shown (h : v.Inv parse p) (hn : v.next parse p.sender = some v') :
    v'.sender.value = v.sender.value ∨
      v'.sender.value.revision = v.sender.value.revision + 1 ∧
      ∃ d ∈ v.taken.head?, parse d = .ok v'.sender.value.value := by
  have hinv := h.task
  cases viewStep_of_next hn with
  | keep hsender => exact .inl (by rw [hsender])
  | send revision value htask =>
    unfold TaskInv at hinv
    rw [htask] at hinv
    obtain ⟨hnext, -, -, d, taken, htaken, hparse⟩ := hinv
    exact .inr ⟨hnext, d, by rw [htaken]; rfl, hparse⟩

/-- Behind a closed publisher a task takes no document any more. -/
theorem next_closed (hclosed : p.sender.value.closed = true) (h : v.Inv parse p)
    (hn : v.next parse p.sender = some v') :
    v'.sender.value.revision + v'.pending ≤ v.sender.value.revision + v.pending := by
  have hinv := h.task
  unfold TaskInv at hinv
  unfold View.next at hn
  split at hn
  · split at hn
    · cases hn
      unfold View.take
      dsimp only
      rw [if_pos hclosed]
      show v.sender.value.revision + 0 ≤ _
      omega
    · cases hn
  · rename_i htask
    cases hn
    simp only [pending, htask]
    omega
  · rename_i revision value htask
    cases hn
    rw [htask] at hinv
    simp only [pending, htask, Watch.value_sendReplace]
    omega
  · rename_i htask
    cases hn
    simp only [pending, htask]
    omega
  · rename_i htask
    cases hn
    simp only [pending, htask]
    omega
  · cases hn

end View

/-! ## Views over runs -/

section Runs

variable {s s' : Source} {ts : List (Call T)} {t t' : Call T} {i : Nat}

theorem Inv.shown (h : Inv parse s ts) (hi : ts[i]? = some t) (hs : SourceStep parse s t s' t')
    {v v' : View T} (hv : t = .view v) (hv' : t' = .view v') :
    v'.sender.value = v.sender.value ∨
      v'.sender.value.revision = v.sender.value.revision + 1 ∧
      ∃ d ∈ v.taken.head?, parse d = .ok v'.sender.value.value := by
  subst hv hv'
  obtain ⟨-, ⟨w, hw, hn | rfl | ⟨-, -, rfl⟩⟩ | ⟨hin, -⟩⟩ := hs.view? rfl
  · cases hw
    exact (h.views _ (List.mem_of_getElem? hi) _ rfl).shown hn
  · cases hw
    exact .inl rfl
  · cases hw
    exact .inl rfl
  · cases hin

/-- A view stays one. -/
theorem SourceStep.isView (hs : SourceStep parse s (.view v) s' t') :
    ∃ v' : View T, t' = .view v' := by
  cases hs with
  | view => exact ⟨_, rfl⟩
  | drop => exact ⟨_, rfl⟩
  | closed => exact ⟨_, rfl⟩
  | other _ _ _ hview => cases hview

end Runs

/-- The view of the thread `i`, later on. -/
theorem later_run (parse : ConfigDocument → Except ConfigError T)
    {es : List (Event CallKind Action)} {i : Nat} {v : View T}
    (hi : ((hot parse).run es).threads[i]? = some (.view v))
    (later : List (Event CallKind Action)) :
    ∃ v', ((hot parse).run (es ++ later)).threads[i]? = some (.view v') ∧ v.Later v' := by
  refine (hot parse).stable (J := fun p => Inv parse p.shared p.threads)
    (I := fun p => ∃ v', p.threads[i]? = some (.view v') ∧ v.Later v') (inv_run parse) ?_ ?_
    ⟨v, hi, .inr rfl⟩ later
  · rintro p kind - ⟨v', hv', hlater⟩
    exact ⟨v', getElem?_concat_iff.mpr (.inl hv'), hlater⟩
  · rintro p j t a s' t' hinv ⟨v', hv', hlater⟩ hj hn
    have hs := sourceStep_of_next hn
    by_cases hij : i = j
    · subst hij
      rw [hv'] at hj
      cases hj
      obtain ⟨w, rfl⟩ := hs.isView
      refine ⟨w, (getElem?_set_iff hv').mpr (.inl ⟨rfl, rfl⟩), hlater.trans ?_⟩
      rcases hinv.shown hv' hs rfl rfl with hsame | ⟨hnext, -⟩
      · exact .inr hsame
      · exact .inl (by omega)
    · exact ⟨v', (getElem?_set_iff hj).mpr (.inr ⟨hij, hv'⟩), hlater⟩

/-- After the publisher is closed nothing is published to it, no view is made, and a view
shows at most the value it had parsed by then. -/
theorem closed_run (parse : ConfigDocument → Except ConfigError T)
    {es : List (Event CallKind Action)} (hclosed : ((hot parse).run es).shared.publisher.closed = true)
    (later : List (Event CallKind Action)) :
    ((hot parse).run (es ++ later)).shared.publisher = ((hot parse).run es).shared.publisher ∧
      ∀ (i : Nat) (v' : View T),
        ((hot parse).run (es ++ later)).threads[i]? = some (.view v') →
        ∃ v : View T, ((hot parse).run es).threads[i]? = some (.view v) ∧
          v'.sender.value.revision + v'.pending ≤ v.sender.value.revision + v.pending := by
  refine (hot parse).stable (J := fun p => Inv parse p.shared p.threads)
    (I := fun p => p.shared.publisher = ((hot parse).run es).shared.publisher ∧
      ∀ (i : Nat) (v' : View T), p.threads[i]? = some (.view v') →
        ∃ v : View T, ((hot parse).run es).threads[i]? = some (.view v) ∧
          v'.sender.value.revision + v'.pending ≤ v.sender.value.revision + v.pending)
    (inv_run parse) ?_ ?_ ⟨rfl, fun i v' hv' => ⟨v', hv', Nat.le_refl _⟩⟩ later
  · rintro p kind - ⟨hpublisher, hviews⟩
    refine ⟨hpublisher, fun i v' hv' => ?_⟩
    rcases getElem?_concat_iff.mp hv' with hold | ⟨-, hnew⟩
    · exact hviews i v' hold
    · cases kind <;> cases hnew
  · rintro p j t a s' t' hinv ⟨hpublisher, hviews⟩ hj hn
    have hs := sourceStep_of_next hn
    have hc : p.shared.publisher.closed = true := hpublisher ▸ hclosed
    refine ⟨((hs.publisher hinv.publisher).closed_of hc).trans hpublisher, fun i v' hv' => ?_⟩
    rcases (getElem?_set_iff hj).mp hv' with ⟨rfl, hnew⟩ | ⟨-, hold⟩
    · subst hnew
      obtain ⟨-, ⟨w, rfl, hw⟩ | ⟨-, inRuntime, htyped⟩⟩ := hs.view? rfl
      · obtain ⟨v, hv, hle⟩ := hviews i w hj
        refine ⟨v, hv, Nat.le_trans ?_ hle⟩
        rcases hw with hnext | rfl | ⟨htask, -, rfl⟩
        · exact View.next_closed (hinv.publisher.closed.trans hc)
            (hinv.views _ (List.mem_of_getElem? hj) w rfl) hnext
        · exact Nat.le_refl _
        · simp only [View.pending, htask]
          omega
      · have hopen := (View.inv_of_typed hinv.publisher htyped).2
        rw [hc] at hopen
        cases hopen
    · exact hviews i v' hold

/-- **A view keeps the last good value.**  It shows the parse of a document that was
published or initial; quiet, it shows what the latest document says; every change shows
the next revision, and a document that does not parse changes no value.  The close result
comes after the publisher is closed, and from then on no document is taken and each view
shows at most one more value, whose document it had taken by then. -/
theorem hot_lastGood (parse : ConfigDocument → Except ConfigError T)
    (es later : List (Event CallKind Action)) :
    let p := (hot parse).run es
    let p' := (hot parse).run (es ++ later)
    let publisher := p.shared.publisher
    (∀ (i : Nat) (v : View T), p.threads[i]? = some (.view v) →
      (∃ d ∈ publisher.documents, parse d = .ok v.sender.value.value) ∧
      (publisher.closed = false → v.Quiet publisher →
        ∃ d, publisher.sender.value.document = some d ∧
          (∀ x, parse d = .ok x → v.sender.value.value = x ∧ v.errorSender.value = none) ∧
          ∀ e, parse d = .error e →
            lastGood parse v.taken = some v.sender.value.value ∧ v.errorSender.value = some e) ∧
      (publisher.closed = false → v.held = true → v.revision + 1 < Usize.size →
        ¬ v.Quiet publisher → (v.next parse publisher.sender).isSome) ∧
      (∃ v' : View T, p'.threads[i]? = some (.view v') ∧ v.Later v') ∧
      ∀ ev (v' : View T), ((hot parse).step p ev).threads[i]? = some (.view v') →
        v'.sender.value = v.sender.value ∨
          v'.sender.value.revision = v.sender.value.revision + 1 ∧
          ∃ d ∈ v.taken.head?, parse d = .ok v'.sender.value.value) ∧
    (p.shared.closeResult.value.isSome → publisher.closed = true) ∧
    (publisher.closed = true → p'.shared.publisher = publisher ∧
      ∀ (i : Nat) (v' : View T), p'.threads[i]? = some (.view v') →
        ∃ v : View T, p.threads[i]? = some (.view v) ∧
        v'.sender.value.revision ≤ v.sender.value.revision + v.pending ∧
        (v.pending = 0 → v'.sender.value = v.sender.value)) := by
  intro p p' publisher
  have hinv : Inv parse p.shared p.threads := inv_run parse es
  refine ⟨fun i v hi => ?_, hinv.closing.result, fun hclosed => ?_⟩
  · have hview := hinv.views _ (List.mem_of_getElem? hi) v rfl
    obtain ⟨d, hd, hparse⟩ := hview.value
    refine ⟨⟨d, hview.taken d hd, hparse⟩, hview.quiet hinv.publisher, hview.moves,
      later_run parse hi later, fun ev v' hv' => ?_⟩
    rcases (hot parse).step_cases p ev with hstep | ⟨kind, -, hstep⟩ |
      ⟨j, a, t, s', t', -, hj, hn, hstep⟩
    · rw [hstep, hi] at hv'
      cases hv'
      exact .inl rfl
    · rw [hstep] at hv'
      rcases getElem?_concat_iff.mp hv' with hold | ⟨-, hnew⟩
      · rw [hi] at hold
        cases hold
        exact .inl rfl
      · cases kind <;> cases hnew
    · rw [hstep] at hv'
      rcases (getElem?_set_iff hj).mp hv' with ⟨rfl, rfl⟩ | ⟨-, hold⟩
      · rw [hi] at hj
        cases hj
        exact hinv.shown hi (sourceStep_of_next hn) rfl rfl
      · rw [hi] at hold
        cases hold
        exact .inl rfl
  · obtain ⟨hpublisher, hviews⟩ := closed_run parse hclosed later
    refine ⟨hpublisher, fun i v' hv' => ?_⟩
    obtain ⟨v, hv, hle⟩ := hviews i v' hv'
    refine ⟨v, hv, by omega, fun hpending => ?_⟩
    obtain ⟨w, hw, hlater⟩ := later_run parse hv later
    rw [hv'] at hw
    cases hw
    rcases hlater with hlt | hsame
    · omega
    · exact hsame

/-! ## A change after the close -/

/-- A parser of texts, which rejects the empty one. -/
def textOf (d : ConfigDocument) : Except ConfigError Text :=
  if d.content = [] then .error ⟨.parse, .invalidData, "configuration data is invalid".toList⟩
  else .ok d.content

/-- What the view of the thread `i` shows. -/
def shown (p : Pool Source (Call T)) (i : Nat) : Option (ConfigSnapshot T) :=
  ((p.threads[i]?).bind Call.view?).map fun v => v.sender.value

def runs (i n : Nat) : List (Event CallKind Action) := List.replicate n (.act i (.run true))

/-- The handle is activated with a first document and a view, thread 2, is made. -/
def viewMade : List (Event CallKind Action) :=
  [.spawn .activate, .spawn .runtime] ++ runs 0 4 ++
    List.replicate 5 (.act 1 (.poll (.activation (.ok ⟨.toml, "first".toList⟩)))) ++
    [.spawn .typed] ++ runs 2 2

/-- The view takes a second document, and before it goes on the handle is closed. -/
def closedMeanwhile : List (Event CallKind Action) :=
  viewMade ++ [.spawn (.publish ⟨.toml, "second".toList⟩)] ++ runs 3 1 ++ runs 2 1 ++
    [.spawn .requestClose] ++ runs 4 3 ++ List.replicate 6 (.act 1 (.poll (.cleanup (.ok ()))))

theorem change_after_close :
    ¬ ∀ es later i x, ((hot textOf).run es).shared.closeResult.value.isSome →
      shown ((hot textOf).run es) i = some x →
      shown ((hot textOf).run (es ++ later)) i = some x := by
  intro h
  have := h closedMeanwhile (runs 2 2) 2 ⟨1, "first".toList⟩ (by decide +kernel)
    (by decide +kernel)
  exact absurd this (by decide +kernel)

end Fusen.Config
