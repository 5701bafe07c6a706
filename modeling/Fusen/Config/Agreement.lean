import Fusen.Config.LastGood

/-!
# Two typed views of one source

`views_agree_iff`: two views that have taken everything published since they were made
show the same value exactly if a document parses that was current when the later one
was made, or was published since, or nothing parsed before that the baseline does not
give as well.  Behind that stands `settled_run`: once a handle is activated, nothing
but publications changes what the publisher has.
-/

namespace Fusen.Config

open Lib Fusen.Runtime

variable {T : Type} {parse : ConfigDocument → Except ConfigError T}

/-! ## The lock of the start state -/

/-- The worker has nothing initial to publish any more. -/
def WorkerPhase.settled : WorkerPhase → Bool
  | .absent | .activating | .initial _ => false
  | _ => true

/-- The thread has the lock. -/
def Call.critical : Call T → Nat
  | .readRequested | .spawnWorker | .finish _ | .sendActivation _ | .sendClose => 1
  | _ => 0

/-- The thread has the lock and has found the handle prepared. -/
def Call.starting : Call T → Bool
  | .readRequested | .spawnWorker => true
  | _ => false

/-- The thread has seen the activation succeed. -/
def Call.reads : Call T → Bool
  | .inputs | .view _ => true
  | _ => false

structure Source.Started (s : Source) (ts : List (Call T)) : Prop where
  lock : total Call.critical ts = if s.locked then 1 else 0
  starting : ∀ t ∈ ts, t.starting = true → s.start = .prepared
  prepared : s.start = .prepared → s.worker.phase = .absent
  result : s.activationResult.value = some (.ok ()) → s.worker.phase.settled = true
  views : ∀ t ∈ ts, t.reads = true → s.worker.phase.settled = true

section Steps

variable {s s' : Source} {t t' : Call T} {a : Action}

/-- The worker leaves the lock and the start state alone, and stays settled. -/
theorem workerNext_keeps {provided : Provided} (h : s.workerNext provided = some s') :
    s'.locked = s.locked ∧ s'.start = s.start ∧ s.worker.phase ≠ .absent ∧
      (s.worker.phase.settled = true → s'.worker.phase.settled = true) ∧
      (s'.activationResult.value = some (.ok ()) →
        s.activationResult.value = some (.ok ()) ∨ s'.worker.phase.settled = true) := by
  revert h
  fun_cases Source.workerNext s provided <;> intro h <;> cases h <;>
    simp_all [Source.workerAt, Source.sendActivation, Source.sendClose, Source.finish,
      WorkerPhase.settled]

theorem workerAbort_keeps (h : s.workerAbort = some s') :
    s'.locked = s.locked ∧ s'.start = s.start ∧ s.worker.phase ≠ .absent ∧
      s'.worker.phase.settled = true ∧ s'.activationResult = s.activationResult := by
  unfold Source.workerAbort at h
  split at h <;> cases h <;> simp_all [Source.workerAt, WorkerPhase.settled]

theorem critical_of_next (h : s.next parse t a = some (s', t'))
    (hlock : t.critical = 1 → s.locked = true) :
    t'.critical + (if s.locked then 1 else 0) = t.critical + if s'.locked then 1 else 0 := by
  revert h
  fun_cases Source.next parse s t a <;> intro h
  case case29 =>
    obtain ⟨v, -, he⟩ := Option.map_eq_some_iff.mp h
    cases he
    rfl
  case case34 =>
    obtain ⟨x, hx, he⟩ := Option.map_eq_some_iff.mp h
    cases he
    rw [(workerNext_keeps hx).1]
  case case35 =>
    obtain ⟨x, hx, he⟩ := Option.map_eq_some_iff.mp h
    cases he
    rw [(workerAbort_keeps hx).1]
  all_goals cases h
  all_goals first
    | rfl
    | simp_all [Call.critical]

/-- The start state changes under the lock, and never back. -/
theorem start_of_next (h : s.next parse t a = some (s', t')) :
    s'.start = s.start ∨ s'.start ≠ .prepared ∧ (t.starting = true ∨ s.locked = false) := by
  revert h
  fun_cases Source.next parse s t a <;> intro h
  case case29 =>
    obtain ⟨v, -, he⟩ := Option.map_eq_some_iff.mp h
    cases he
    exact .inl rfl
  case case34 =>
    obtain ⟨x, hx, he⟩ := Option.map_eq_some_iff.mp h
    cases he
    exact .inl (workerNext_keeps hx).2.1
  case case35 =>
    obtain ⟨x, hx, he⟩ := Option.map_eq_some_iff.mp h
    cases he
    exact .inl (workerAbort_keeps hx).2.1
  all_goals cases h
  all_goals first
    | exact .inl rfl
    | exact .inr ⟨by simp, .inl rfl⟩
    | exact .inr ⟨by simp, .inr (by simpa using ‹¬s.locked = true›)⟩

/-- Whoever has found the handle prepared is the one to start or finish it. -/
theorem starting_of_next (h : s.next parse t a = some (s', t'))
    (ht : t.starting = true → s.start = .prepared) (h' : t'.starting = true) :
    s'.start = .prepared := by
  revert h
  fun_cases Source.next parse s t a <;> intro h
  case case29 | case34 | case35 =>
    obtain ⟨x, -, he⟩ := Option.map_eq_some_iff.mp h
    cases he
    cases h'
  all_goals cases h
  all_goals first
    | cases h'; done
    | assumption
    | exact ht rfl

/-- What becomes of the worker and of the activation's result. -/
theorem worker_of_next (h : s.next parse t a = some (s', t')) :
    (s'.worker.phase = s.worker.phase ∧
        (s'.activationResult.value = some (.ok ()) → s.activationResult.value = some (.ok ()))) ∨
      t.starting = true ∧ s'.start = .started ∧ s'.activationResult = s.activationResult ∨
      (∃ provided, s.workerNext provided = some s') ∨ s.workerAbort = some s' := by
  revert h
  fun_cases Source.next parse s t a <;> intro h
  case case29 =>
    obtain ⟨v, -, he⟩ := Option.map_eq_some_iff.mp h
    cases he
    exact .inl ⟨rfl, id⟩
  case case34 =>
    obtain ⟨x, hx, he⟩ := Option.map_eq_some_iff.mp h
    cases he
    exact .inr (.inr (.inl ⟨_, hx⟩))
  case case35 =>
    obtain ⟨x, hx, he⟩ := Option.map_eq_some_iff.mp h
    cases he
    exact .inr (.inr (.inr hx))
  all_goals cases h
  all_goals first
    | exact .inl ⟨rfl, id⟩
    | exact .inr (.inl ⟨rfl, rfl, rfl⟩)
    | exact .inl ⟨rfl, fun h => by cases h⟩

theorem reads_of_next (h : s.next parse t a = some (s', t')) (h' : t'.reads = true) :
    t.reads = true ∨ s.activationResult.value = some (.ok ()) := by
  revert h
  fun_cases Source.next parse s t a <;> intro h
  case case29 => exact .inl rfl
  case case34 | case35 =>
    obtain ⟨x, -, he⟩ := Option.map_eq_some_iff.mp h
    cases he
    cases h'
  all_goals cases h
  all_goals first
    | exact .inl rfl
    | cases h'; done
    | exact .inr (by assumption)

end Steps

theorem Call.critical_of_starting {t : Call T} (h : t.starting = true) : t.critical = 1 := by
  cases t <;> first | rfl | cases h

section Started

variable {s s' : Source} {ts : List (Call T)} {t t' : Call T} {a : Action} {i : Nat}

/-- Only one thread has the lock. -/
theorem Source.Started.alone (h : s.Started ts) (hi : ts[i]? = some t)
    (hfree : t.critical = 1 ∨ s.locked = false) {j : Nat} {u : Call T} (hj : ts[j]? = some u)
    (hne : j ≠ i) : u.critical = 0 := by
  have hset := total_set Call.critical hi Call.done
  have hother : (ts.set i Call.done)[j]? = some u := (getElem?_set_iff hi).mpr (.inr ⟨hne, hj⟩)
  have hle := le_total (w := Call.critical) (List.mem_of_getElem? hother)
  have hdone : (Call.done : Call T).critical = 0 := rfl
  rw [h.lock, hdone] at hset
  rcases hfree with hfree | hfree
  · split at hset <;> omega
  · rw [hfree, if_neg (by decide)] at hset
    omega

theorem Source.Started.step (h : s.Started ts) (hi : ts[i]? = some t)
    (hn : s.next parse t a = some (s', t')) : s'.Started (ts.set i t') := by
  have hmem := List.mem_of_getElem? hi
  have hlocked : t.critical = 1 → s.locked = true := by
    intro ht
    have hle := le_total (w := Call.critical) hmem
    rw [h.lock, ht] at hle
    by_contra hfree
    rw [if_neg hfree] at hle
    omega
  -- who else has found the handle prepared
  have hothers : ∀ j u, j ≠ i → ts[j]? = some u → u.starting = true → s'.start = .prepared := by
    intro j u hne hj hu
    rcases start_of_next hn with hsame | ⟨-, hchanged⟩
    · rw [hsame]
      exact h.starting u (List.mem_of_getElem? hj) hu
    · have hzero := h.alone hi (hchanged.imp Call.critical_of_starting id) hj hne
      rw [Call.critical_of_starting hu] at hzero
      cases hzero
  have hsettled : s.worker.phase.settled = true → s'.worker.phase.settled = true := by
    intro hold
    rcases worker_of_next hn with ⟨hphase, -⟩ | ⟨hstarting, -, -⟩ | ⟨provided, hw⟩ | hw
    · rw [hphase]
      exact hold
    · rw [h.prepared (h.starting t hmem hstarting)] at hold
      cases hold
    · exact (workerNext_keeps hw).2.2.2.1 hold
    · exact (workerAbort_keeps hw).2.2.2.1
  refine ⟨?_, ?_, ?_, ?_, ?_⟩
  · have hset := total_set Call.critical hi t'
    have hcritical := critical_of_next hn hlocked
    rw [h.lock] at hset
    omega
  · intro u hu hstarting
    rcases (mem_set_iff hi).mp hu with rfl | ⟨j, hne, hj⟩
    · exact starting_of_next hn (h.starting t hmem) hstarting
    · exact hothers j u hne hj hstarting
  · intro hprepared
    have hold : s.start = .prepared := by
      rcases start_of_next hn with hsame | ⟨hne, -⟩
      · rw [← hsame, hprepared]
      · exact absurd hprepared hne
    have habsent := h.prepared hold
    rcases worker_of_next hn with ⟨hphase, -⟩ | ⟨-, hstarted, -⟩ | ⟨provided, hw⟩ | hw
    · rw [hphase, habsent]
    · rw [hstarted] at hprepared
      cases hprepared
    · exact absurd habsent (workerNext_keeps hw).2.2.1
    · exact absurd habsent (workerAbort_keeps hw).2.2.1
  · intro hresult
    rcases worker_of_next hn with ⟨-, hsame⟩ | ⟨-, -, hsame⟩ | ⟨provided, hw⟩ | hw
    · exact hsettled (h.result (hsame hresult))
    · rw [hsame] at hresult
      exact hsettled (h.result hresult)
    · rcases (workerNext_keeps hw).2.2.2.2 hresult with hold | hnew
      · exact hsettled (h.result hold)
      · exact hnew
    · rw [(workerAbort_keeps hw).2.2.2.2] at hresult
      exact hsettled (h.result hresult)
  · intro u hu hreads
    rcases (mem_set_iff hi).mp hu with rfl | ⟨j, -, hj⟩
    · rcases reads_of_next hn hreads with hold | hresult
      · exact hsettled (h.views t hmem hold)
      · exact hsettled (h.result hresult)
    · exact hsettled (h.views u (List.mem_of_getElem? hj) hreads)

end Started

theorem started_run (parse : ConfigDocument → Except ConfigError T)
    (es : List (Event CallKind Action)) :
    ((hot parse).run es).shared.Started ((hot parse).run es).threads := by
  refine (hot parse).invariant (I := fun p => p.shared.Started p.threads) ?_ ?_ ?_ es
  · exact ⟨rfl, fun t ht => absurd ht List.not_mem_nil, fun _ => rfl, nofun,
      fun t ht => absurd ht List.not_mem_nil⟩
  · intro p kind h
    have hnew : (CallKind.start kind : Call T).critical = 0 ∧
        (CallKind.start kind : Call T).starting = false ∧
        (CallKind.start kind : Call T).reads = false := by
      cases kind <;> exact ⟨rfl, rfl, rfl⟩
    refine ⟨?_, ?_, h.prepared, h.result, ?_⟩
    · show total _ (p.threads ++ [CallKind.start kind]) = _
      rw [total_concat, h.lock, hnew.1]
      rfl
    · intro t ht hstarting
      rcases List.mem_append.mp ht with ht | ht
      · exact h.starting t ht hstarting
      · rw [List.mem_singleton.mp ht] at hstarting
        exact absurd (hnew.2.1.symm.trans hstarting) (by decide)
    · intro t ht hreads
      rcases List.mem_append.mp ht with ht | ht
      · exact h.views t ht hreads
      · rw [List.mem_singleton.mp ht] at hreads
        exact absurd (hnew.2.2.symm.trans hreads) (by decide)
  · intro p i t a s' t' h hi hn
    exact h.step hi hn

/-! ## Publications -/

/-- What is published after the initial document: `newer`, latest first. -/
def Publisher.Follows (p p' : Publisher) (newer : List ConfigDocument) : Prop :=
  p'.documents = newer ++ p.documents ∧ p'.baseline = p.baseline ∧
    p'.sender.value.document = newer.head?.or p.sender.value.document

namespace Publisher

theorem Follows.refl (p : Publisher) : p.Follows p [] := ⟨rfl, rfl, rfl⟩

theorem Follows.trans {p p' p'' : Publisher} {newer newer' : List ConfigDocument}
    (h : p.Follows p' newer) (h' : p'.Follows p'' newer') : p.Follows p'' (newer' ++ newer) := by
  obtain ⟨hdocuments, hbaseline, hdocument⟩ := h
  obtain ⟨hdocuments', hbaseline', hdocument'⟩ := h'
  refine ⟨?_, hbaseline'.trans hbaseline, ?_⟩
  · rw [hdocuments', hdocuments, List.append_assoc]
  · rw [hdocument', hdocument, List.head?_append, Option.or_assoc]

theorem follows_finish (p : Publisher) : p.Follows p.finish [] := by
  unfold finish
  split <;> exact ⟨rfl, rfl, rfl⟩

end Publisher

section Publications

variable {s s' : Source} {t t' : Call T}

/-- Behind the initial document only `publish` adds a document, and sends it. -/
theorem follows_of_settled (hs : SourceStep parse s t s' t')
    (hsettled : s.worker.phase.settled = true) :
    ∃ newer, s.publisher.Follows s'.publisher newer := by
  cases hs with
  | @publish document publisher h =>
    refine ⟨[document], ?_⟩
    unfold Publisher.publish at h
    split at h
    · cases h
    · split at h
      · cases h
      · cases h
        exact ⟨rfl, rfl, rfl⟩
  | finish | dropPublisher => exact ⟨[], s.publisher.follows_finish⟩
  | @worker s' provided h =>
    refine ⟨[], ?_⟩
    revert h
    fun_cases Source.workerNext s provided <;> intro h <;> cases h
    case case4.refl => simp_all [WorkerPhase.settled]
    all_goals first
      | exact Publisher.Follows.refl _
      | exact s.publisher.follows_finish
  | abort h =>
    unfold Source.workerAbort at h
    split at h <;> cases h <;> exact ⟨[], Publisher.Follows.refl _⟩
  | other hpublisher =>
    rw [hpublisher]
    exact ⟨[], Publisher.Follows.refl _⟩
  | _ => exact ⟨[], Publisher.Follows.refl _⟩

end Publications

/-- Once the handle is activated, publications are all that changes what is published. -/
theorem settled_run (parse : ConfigDocument → Except ConfigError T)
    {es : List (Event CallKind Action)}
    (hsettled : ((hot parse).run es).shared.worker.phase.settled = true)
    (later : List (Event CallKind Action)) :
    ((hot parse).run (es ++ later)).shared.worker.phase.settled = true ∧ ∃ newer,
      ((hot parse).run es).shared.publisher.Follows
        ((hot parse).run (es ++ later)).shared.publisher newer := by
  refine (hot parse).stable (J := fun p => p.shared.Started p.threads)
    (I := fun p => p.shared.worker.phase.settled = true ∧ ∃ newer,
      ((hot parse).run es).shared.publisher.Follows p.shared.publisher newer)
    (started_run parse) (fun p kind _ h => h) ?_ ⟨hsettled, [], Publisher.Follows.refl _⟩ later
  rintro p i t a s' t' hstarted ⟨hphase, newer, hfollows⟩ hi hn
  obtain ⟨newer', hfollows'⟩ := follows_of_settled (sourceStep_of_next hn) hphase
  refine ⟨?_, newer' ++ newer, hfollows.trans hfollows'⟩
  rcases worker_of_next hn with ⟨hsame, -⟩ | ⟨hstarting, -, -⟩ | ⟨provided, hw⟩ | hw
  · show s'.worker.phase.settled = true
    rw [hsame]
    exact hphase
  · have habsent := hstarted.prepared (hstarted.starting t (List.mem_of_getElem? hi) hstarting)
    rw [habsent] at hphase
    cases hphase
  · exact (workerNext_keeps hw).2.2.2.1 hphase
  · exact (workerAbort_keeps hw).2.2.2.1

/-! ## Agreement -/

/-- The documents published from `earlier` on, latest first. -/
def Publisher.since (p earlier : Publisher) : List ConfigDocument :=
  p.documents.take (p.documents.length - earlier.documents.length)

theorem Publisher.Follows.since {p p' : Publisher} {newer : List ConfigDocument}
    (h : p.Follows p' newer) : p'.since p = newer := by
  rw [Publisher.since, h.1, List.length_append, Nat.add_sub_cancel, List.take_left]

/-- A view that was made from the publisher `made` has taken everything published since. -/
def View.SeesAll (v : View T) (made p : Publisher) : Prop :=
  v.taken = p.since made ++ (View.inputs made.baseline made.sender.value.document).reverse

/-- What was current when the later view was made, or was published since, parses; or what
had been before it gives the baseline's value. -/
def AgreeWhen (parse : ConfigDocument → Except ConfigError T) (earlier later p : Publisher) :
    Prop :=
  (∃ d ∈ p.since later ++ later.sender.value.document.toList, ∃ x, parse d = .ok x) ∨
    lastGood parse (later.since earlier ++ earlier.sender.value.document.toList ++
      earlier.baseline.toList) = lastGood parse earlier.baseline.toList

theorem lastGood_append (a b : List ConfigDocument) :
    lastGood parse (a ++ b) = (lastGood parse a).or (lastGood parse b) := by
  simp [lastGood, List.findSome?_append]

theorem lastGood_eq_none_iff {taken : List ConfigDocument} :
    lastGood parse taken = none ↔ ¬ ∃ d ∈ taken, ∃ x, parse d = .ok x := by
  unfold lastGood
  rw [List.findSome?_eq_none_iff]
  constructor
  · rintro h ⟨d, hd, x, hx⟩
    have := h d hd
    rw [hx] at this
    cases this
  · intro h d hd
    cases hp : parse d with
    | error e => rfl
    | ok x => exact absurd ⟨d, hd, x, hp⟩ h

theorem lastGood_inputs (baseline current : Option ConfigDocument) :
    lastGood parse (View.inputs baseline current).reverse =
      (lastGood parse current.toList).or (lastGood parse baseline.toList) := by
  unfold View.inputs
  cases baseline with
  | none => cases current <;> simp [lastGood]
  | some b =>
    cases current with
    | none => simp [lastGood]
    | some d =>
      by_cases hd : b = d
      · subst hd
        cases h : parse b <;> simp [lastGood, h]
      · cases h : parse d <;> simp [lastGood, hd, h, Except.toOption]

/-- The last good values, from what was published: both views hold that of `newer` if there
is one, else the later view has only what it was made from. -/
theorem lastGood_agree_iff {earlier later p : Publisher} {between newer : List ConfigDocument}
    (hbetween : earlier.Follows later between) (hnewer : later.Follows p newer) {v w : View T}
    (hv : v.SeesAll earlier p) (hw : w.SeesAll later p) :
    lastGood parse v.taken = lastGood parse w.taken ↔ AgreeWhen parse earlier later p := by
  unfold View.SeesAll at hv hw
  rw [(hbetween.trans hnewer).since] at hv
  rw [hnewer.since] at hw
  unfold AgreeWhen
  rw [hnewer.since, hbetween.since, hv, hw, hbetween.2.1, hbetween.2.2]
  simp only [lastGood_append, lastGood_inputs]
  have hparses : ∀ l : List ConfigDocument,
      (∃ d ∈ l, ∃ x, parse d = .ok x) ↔ lastGood parse l ≠ none := by
    intro l
    rw [Ne, lastGood_eq_none_iff, not_not]
  rw [hparses, lastGood_append]
  have hnil : lastGood parse [] = none := rfl
  cases hnew : lastGood parse newer with
  | some x => simp
  | none =>
    cases between with
    | nil =>
      cases hcurrent : lastGood parse earlier.sender.value.document.toList with
      | some x => simp [hcurrent, hnil]
      | none => simp [hcurrent, hnil]
    | cons d between =>
      cases hd : parse d with
      | ok x => simp [lastGood_cons_ok hd]
      | error e =>
        rw [lastGood_cons_error hd]
        simp [lastGood_cons_error hd, hnil, Option.or_assoc]

/-- A quiet view shows the last good value of what it has taken. -/
theorem View.Inv.quiet_value {p : Publisher} {v : View T} (h : v.Inv parse p) (hq : v.Quiet p) :
    lastGood parse v.taken = some v.sender.value.value := by
  have hinv := h.task
  unfold View.TaskInv at hinv
  rw [hq.1] at hinv
  exact hinv.2.1

/-- **When two views agree.**  The thread `i` makes its view behind `before`, the thread `j`
its own behind `before` and `between`; both see every document published since, and have
processed the latest one. -/
theorem views_agree_iff (parse : ConfigDocument → Except ConfigError T)
    (before between later : List (Event CallKind Action)) (i j : Nat) (v w : View T) :
    let second := before ++ [.act i (.run true)] ++ between
    let es := second ++ [.act j (.run true)] ++ later
    let earlier := ((hot parse).run before).shared.publisher
    let current := ((hot parse).run second).shared.publisher
    let p := ((hot parse).run es).shared.publisher
    ((hot parse).run before).threads[i]? = some .inputs →
    ((hot parse).run second).threads[j]? = some .inputs →
    ((hot parse).run es).threads[i]? = some (.view v) →
    ((hot parse).run es).threads[j]? = some (.view w) →
    v.SeesAll earlier p → w.SeesAll current p → v.Quiet p → w.Quiet p →
    (v.sender.value.value = w.sender.value.value ↔ AgreeWhen parse earlier current p) := by
  intro second es earlier current p hi hj hv hw hsees hsees' hquiet hquiet'
  have hsettled : ((hot parse).run before).shared.worker.phase.settled = true :=
    (started_run parse before).views _ (List.mem_of_getElem? hi) rfl
  have hbetween := settled_run parse hsettled ([.act i (.run true)] ++ between)
  rw [← List.append_assoc] at hbetween
  obtain ⟨hsettled', newer, hfollows⟩ := hbetween
  have hlater := settled_run parse hsettled' ([.act j (.run true)] ++ later)
  rw [← List.append_assoc] at hlater
  obtain ⟨-, newer', hfollows'⟩ := hlater
  have hinv : Inv parse _ _ := inv_run parse es
  have hvalue := (hinv.views _ (List.mem_of_getElem? hv) v rfl).quiet_value hquiet
  have hvalue' := (hinv.views _ (List.mem_of_getElem? hw) w rfl).quiet_value hquiet'
  rw [← lastGood_agree_iff hfollows hfollows' hsees hsees', hvalue, hvalue', Option.some.injEq]

/-! ### Two views -/

/-- Behind `viewMade` but for its last step, where the thread 2 makes its view. -/
def viewPending : List (Event CallKind Action) := viewMade.take 13

/-- The view sees a second document, and the thread 4 is to make a view. -/
def secondSeen : List (Event CallKind Action) :=
  [.spawn (.publish ⟨.toml, "second".toList⟩)] ++ runs 3 1 ++ runs 2 3 ++
    [.spawn .typed] ++ runs 4 1

/-- It sees a malformed document then, and the thread 5 is to make a view. -/
def malformedSeen : List (Event CallKind Action) :=
  [.spawn (.publish ⟨.toml, "second".toList⟩)] ++ runs 3 1 ++ runs 2 3 ++
    [.spawn (.publish ⟨.toml, []⟩)] ++ runs 4 1 ++ runs 2 2 ++ [.spawn .typed] ++ runs 5 1

/-- The view of the thread `i`, by what it has taken and shows. -/
theorem view_of_fields {p : Pool Source (Call T)} {i : Nat} {task : ViewTask T} {seen : Nat}
    {taken : List ConfigDocument} {value : T}
    (h : ((p.threads[i]?).bind Call.view?).map
      (fun v => (v.task, v.seen, v.taken, v.sender.value.value)) = some (task, seen, taken, value)) :
    ∃ v : View T, p.threads[i]? = some (.view v) ∧ v.task = task ∧ v.seen = seen ∧
      v.taken = taken ∧ v.sender.value.value = value := by
  obtain ⟨v, hv, he⟩ := Option.map_eq_some_iff.mp h
  obtain ⟨t, ht, htv⟩ := Option.bind_eq_some_iff.mp hv
  cases t <;> cases htv
  cases he
  exact ⟨v, ht, rfl, rfl, rfl, rfl⟩

theorem inputs_of_fields {p : Pool Source (Call T)} {i : Nat}
    (h : (p.threads[i]?).map (fun t => (t.reads, t.view?.isNone)) = some (true, true)) :
    p.threads[i]? = some .inputs := by
  obtain ⟨t, ht, hfields⟩ := Option.map_eq_some_iff.mp h
  cases t <;> cases hfields
  exact ht

/-- The second document is current when the later view is made. -/
theorem views_agree_second :
    let second := viewPending ++ [.act 2 (.run true)] ++ secondSeen
    let es := second ++ [.act 4 (.run true)] ++ []
    ∃ v w : View Text, ((hot textOf).run es).threads[2]? = some (.view v) ∧
      ((hot textOf).run es).threads[4]? = some (.view w) ∧
      (v.sender.value.value = w.sender.value.value ↔
        AgreeWhen textOf ((hot textOf).run viewPending).shared.publisher
          ((hot textOf).run second).shared.publisher ((hot textOf).run es).shared.publisher) := by
  intro second es
  obtain ⟨v, hv, htask, hseen, htaken, -⟩ := view_of_fields (p := (hot textOf).run es) (i := 2)
    (show _ = some (ViewTask.select, 2,
      [⟨.toml, "second".toList⟩, ⟨.toml, "first".toList⟩], "second".toList) by decide +kernel)
  obtain ⟨w, hw, htask', hseen', htaken', -⟩ := view_of_fields (p := (hot textOf).run es) (i := 4)
    (show _ = some (ViewTask.select, 2,
      [⟨.toml, "second".toList⟩, ⟨.toml, "first".toList⟩], "second".toList) by decide +kernel)
  refine ⟨v, w, hv, hw, views_agree_iff textOf viewPending secondSeen [] 2 4 v w
    (inputs_of_fields (by decide +kernel)) (inputs_of_fields (by decide +kernel)) hv hw ?_ ?_
    ⟨htask, ?_⟩ ⟨htask', ?_⟩⟩
  · unfold View.SeesAll
    rw [htaken]
    decide +kernel
  · unfold View.SeesAll
    rw [htaken']
    decide +kernel
  · rw [hseen]
    decide +kernel
  · rw [hseen']
    decide +kernel

/-- The view made after the malformed document shows the initial one, not the second. -/
theorem views_disagree :
    ¬ ∀ (before between later : List (Event CallKind Action)) (i j : Nat) (v w : View Text),
      let second := before ++ [.act i (.run true)] ++ between
      let es := second ++ [.act j (.run true)] ++ later
      let p := ((hot textOf).run es).shared.publisher
      ((hot textOf).run before).threads[i]? = some .inputs →
      ((hot textOf).run second).threads[j]? = some .inputs →
      ((hot textOf).run es).threads[i]? = some (.view v) →
      ((hot textOf).run es).threads[j]? = some (.view w) →
      v.SeesAll ((hot textOf).run before).shared.publisher p →
      w.SeesAll ((hot textOf).run second).shared.publisher p →
      v.Quiet p → w.Quiet p → v.sender.value.value = w.sender.value.value := by
  intro h
  obtain ⟨v, hv, htask, hseen, htaken, hvalue⟩ := view_of_fields (i := 2)
    (p := (hot textOf).run (viewPending ++ [.act 2 (.run true)] ++ malformedSeen ++
      [.act 5 (.run true)] ++ []))
    (show _ = some (ViewTask.select, 3, [⟨.toml, []⟩, ⟨.toml, "second".toList⟩,
      ⟨.toml, "first".toList⟩], "second".toList) by decide +kernel)
  obtain ⟨w, hw, htask', hseen', htaken', hvalue'⟩ := view_of_fields (i := 5)
    (p := (hot textOf).run (viewPending ++ [.act 2 (.run true)] ++ malformedSeen ++
      [.act 5 (.run true)] ++ []))
    (show _ = some (ViewTask.select, 3, [⟨.toml, []⟩, ⟨.toml, "first".toList⟩],
      "first".toList) by decide +kernel)
  have heq := h viewPending malformedSeen [] 2 5 v w (inputs_of_fields (by decide +kernel))
    (inputs_of_fields (by decide +kernel)) hv hw
    (by unfold View.SeesAll; rw [htaken]; decide +kernel)
    (by unfold View.SeesAll; rw [htaken']; decide +kernel)
    ⟨htask, by rw [hseen]; decide +kernel⟩ ⟨htask', by rw [hseen']; decide +kernel⟩
  rw [hvalue, hvalue'] at heq
  exact absurd heq (by decide)

end Fusen.Config
