import Fusen.Config.Hot

/-!
# What the atomic steps of a hot configuration do

`sourceStep_of_next` lists the steps; `PublisherStep` is what they do to the
publisher and `ViewStep` what they do to a view.  From these come the invariants:
`Publisher.Inv` of the publisher and `View.Inv` of every view.
-/

namespace Fusen.Config

open Lib Fusen.Runtime

variable {T : Type} {parse : ConfigDocument → Except ConfigError T}

/-! ## The publisher -/

/-- What one operation does to the publisher. -/
inductive PublisherStep (s : Publisher) : Publisher → Prop where
  | same : PublisherStep s s
  | publish (document : ConfigDocument) (revision : Nat) (hopen : s.closed = false) :
      PublisherStep s { s with
        revision
        sender := s.sender.sendReplace ⟨some document, false⟩
        documents := document :: s.documents }
  /-- The initial document, behind a document that was pushed before it. -/
  | initial (document : ConfigDocument) (hopen : s.closed = false)
      (hdocument : s.sender.value.document.isSome) :
      PublisherStep s { s with
        baseline := some document
        documents := document :: s.documents }
  | initialSent (document : ConfigDocument) (revision : Nat) (hopen : s.closed = false) :
      PublisherStep s { s with
        baseline := some document
        revision
        sender := s.sender.sendReplace ⟨some document, false⟩
        documents := document :: s.documents }
  | finish (hopen : s.closed = false) :
      PublisherStep s { s with
        closed := true
        revision := min (s.revision + 1) (Usize.size - 1)
        sender := s.sender.sendReplace ⟨s.sender.value.document, true⟩ }

/-- What the publisher has sent it has taken, and says it is closed once it is. -/
structure Publisher.Inv (s : Publisher) : Prop where
  closed : s.sender.value.closed = s.closed
  document : ∀ d ∈ s.sender.value.document, d ∈ s.documents
  baseline : ∀ d ∈ s.baseline, d ∈ s.documents
  empty : s.sender.value.document = none → s.baseline = none ∧ (s.closed = false → s.revision = 0)

theorem Publisher.inv_new : Publisher.new.Inv :=
  ⟨rfl, nofun, nofun, fun _ => ⟨rfl, fun _ => rfl⟩⟩

section PublisherSteps

variable {s s' : Publisher}

theorem publisherStep_of_publish {d : ConfigDocument} (h : s.publish d = .ok s') :
    PublisherStep s s' := by
  unfold Publisher.publish at h
  split at h
  · cases h
  · rename_i hopen
    split at h
    · cases h
    · cases h
      exact .publish d _ (by simpa using hopen)

theorem publisherStep_finish (s : Publisher) : PublisherStep s s.finish := by
  unfold Publisher.finish
  split
  · exact .same
  · rename_i hopen
    exact .finish (by simpa using hopen)

/-- The first document never fails on the revision, which is still zero. -/
theorem publisherStep_publishInitial (h : s.Inv) (d : ConfigDocument) :
    PublisherStep s (s.publishInitial d).2 := by
  unfold Publisher.publishInitial
  split
  · exact .same
  · rename_i hopen
    have hclosed : s.closed = false := by simpa using hopen
    show PublisherStep s (ite (s.sender.value.document.isNone = true) _ _ : ConfigResult × _).2
    split
    · rename_i hnone
      have hrevision := (h.empty (by simpa using hnone)).2 hclosed
      have hadd : Usize.checkedAdd s.revision 1 = some 1 :=
        Usize.checkedAdd_eq_some_iff.mpr ⟨by rw [hrevision]; unfold Usize.size; omega, by omega⟩
      simp only [hadd]
      exact .initialSent d 1 hclosed
    · rename_i hsome
      exact .initial d hclosed (by simpa [Option.isSome_iff_ne_none] using hsome)

theorem PublisherStep.inv (hs : PublisherStep s s') (h : s.Inv) : s'.Inv := by
  cases hs with
  | same => exact h
  | publish d revision hopen =>
    refine ⟨hopen.symm, ?_, fun e he => List.mem_cons_of_mem _ (h.baseline e he), nofun⟩
    rintro e ⟨⟩
    exact List.mem_cons_self ..
  | initial d hopen hdocument =>
    refine ⟨h.closed, fun e he => List.mem_cons_of_mem _ (h.document e he), ?_, ?_⟩
    · rintro e ⟨⟩
      exact List.mem_cons_self ..
    · intro hnone
      rw [hnone] at hdocument
      cases hdocument
  | initialSent d revision hopen =>
    refine ⟨hopen.symm, ?_, ?_, nofun⟩ <;> rintro e ⟨⟩ <;> exact List.mem_cons_self ..
  | finish hopen => exact ⟨rfl, h.document, h.baseline, fun hnone => ⟨(h.empty hnone).1, nofun⟩⟩

theorem PublisherStep.closed_of (hs : PublisherStep s s') (h : s.closed = true) : s' = s := by
  cases hs with
  | same => rfl
  | publish d revision hopen => exact absurd (h.symm.trans hopen) (by decide)
  | initial d hopen => exact absurd (h.symm.trans hopen) (by decide)
  | initialSent d revision hopen => exact absurd (h.symm.trans hopen) (by decide)
  | finish hopen => exact absurd (h.symm.trans hopen) (by decide)

theorem PublisherStep.documents_subset (hs : PublisherStep s s') : s.documents ⊆ s'.documents := by
  cases hs with
  | same | finish => exact List.Subset.refl _
  | publish | initial | initialSent => exact List.subset_cons_self ..

/-- A document stays sent, and what a receiver has seen is out of date once one is sent. -/
theorem PublisherStep.sender (hs : PublisherStep s s') :
    s'.sender = s.sender ∨ s'.sender.version = s.sender.version + 1 := by
  cases hs with
  | same | initial => exact .inl rfl
  | publish | initialSent | finish => exact .inr rfl

theorem PublisherStep.document (hs : PublisherStep s s') (h : s.sender.value.document.isSome) :
    s'.sender.value.document.isSome := by
  cases hs with
  | same | initial | finish => exact h
  | publish | initialSent => rfl

end PublisherSteps

/-! ## The values of a view -/

/-- The parse of the latest document that parses. -/
def lastGood (parse : ConfigDocument → Except ConfigError T) (taken : List ConfigDocument) :
    Option T :=
  taken.findSome? fun d => (parse d).toOption

/-- The error of the latest document. -/
def lastError (parse : ConfigDocument → Except ConfigError T) : List ConfigDocument →
    Option ConfigError
  | [] => none
  | d :: _ =>
    match parse d with
    | .error e => some e
    | .ok _ => none

section Values

variable {d : ConfigDocument}

theorem lastGood_cons_ok {x : T} (h : parse d = .ok x) (taken : List ConfigDocument) :
    lastGood parse (d :: taken) = some x := by
  simp [lastGood, h, Except.toOption]

theorem lastGood_cons_error {e : ConfigError} (h : parse d = .error e)
    (taken : List ConfigDocument) : lastGood parse (d :: taken) = lastGood parse taken := by
  simp [lastGood, h, Except.toOption]

theorem lastError_cons_ok {x : T} (h : parse d = .ok x) (taken : List ConfigDocument) :
    lastError parse (d :: taken) = none := by
  simp only [lastError, h]

theorem lastError_cons_error {e : ConfigError} (h : parse d = .error e)
    (taken : List ConfigDocument) : lastError parse (d :: taken) = some e := by
  simp only [lastError, h]

theorem exists_of_lastGood {taken : List ConfigDocument} {x : T}
    (h : lastGood parse taken = some x) : ∃ d ∈ taken, parse d = .ok x := by
  obtain ⟨d, hd, hx⟩ := List.exists_of_findSome?_eq_some h
  refine ⟨d, hd, ?_⟩
  cases hp : parse d with
  | error e =>
    rw [hp] at hx
    cases hx
  | ok y =>
    rw [hp] at hx
    cases hx
    rfl

/-- A new view starts with the last good value and the last error of its inputs. -/
theorem foldl_good (documents : List ConfigDocument) :
    documents.foldl (View.good parse) (none, none) =
      (lastGood parse documents.reverse, lastError parse documents.reverse) := by
  induction documents using List.reverseRecOn with
  | nil => rfl
  | append_singleton documents d ih =>
    rw [List.foldl_concat, ih, List.reverse_concat]
    unfold View.good
    cases hp : parse d with
    | ok x => rw [lastGood_cons_ok hp, lastError_cons_ok hp]
    | error e => rw [lastGood_cons_error hp, lastError_cons_error hp]

end Values

/-! ## Views -/

/-- What the task of a view has and owes, by where it stands. -/
def View.TaskInv (parse : ConfigDocument → Except ConfigError T) (v : View T) : Prop :=
  match v.task with
  | .select => v.sender.value.revision = v.revision ∧
      lastGood parse v.taken = some v.sender.value.value ∧
      v.errorSender.value = lastError parse v.taken
  | .accepted revision value => v.sender.value.revision = v.revision ∧ revision = v.revision + 1 ∧
      ∃ d taken, v.taken = d :: taken ∧ parse d = .ok value
  | .sending revision value => revision = v.sender.value.revision + 1 ∧ v.revision = revision ∧
      v.errorSender.value = none ∧ ∃ d taken, v.taken = d :: taken ∧ parse d = .ok value
  | .rejected e => v.sender.value.revision = v.revision ∧
      lastGood parse v.taken = some v.sender.value.value ∧ lastError parse v.taken = some e
  | .overflowed => Usize.size ≤ v.revision + 1
  | .ended => True

/-- A view shows the parse of a document it has taken, and has taken the latest one
once it has seen the latest version. -/
structure View.Inv (parse : ConfigDocument → Except ConfigError T) (p : Publisher) (v : View T) :
    Prop where
  seen_le : v.seen ≤ p.sender.version
  taken : ∀ d ∈ v.taken, d ∈ p.documents
  document : p.sender.value.document.isSome
  latest : v.seen = p.sender.version → p.sender.value.closed = false →
    v.taken.head? = p.sender.value.document
  value : ∃ d ∈ v.taken, parse d = .ok v.sender.value.value
  task : v.TaskInv parse
  ended : v.task = .ended → p.closed = true ∨ v.held = false ∨ Usize.size ≤ v.revision + 1

section Views

variable {p p' : Publisher} {v v' : View T}

theorem mem_inputs {baseline current : Option ConfigDocument} {d : ConfigDocument}
    (h : d ∈ View.inputs baseline current) : d ∈ baseline ∨ d ∈ current := by
  unfold View.inputs at h
  rcases List.mem_append.mp h with h | h
  · exact .inl (by simpa using h)
  · exact .inr (by simpa using (List.mem_filter.mp h).1)

theorem head?_reverse_inputs {baseline current : Option ConfigDocument} (h : current.isSome) :
    (View.inputs baseline current).reverse.head? = current := by
  obtain ⟨d, rfl⟩ := Option.isSome_iff_exists.mp h
  by_cases hd : baseline = some d
  · subst hd
    simp [View.inputs]
  · simp [View.inputs, hd]

theorem View.inv_of_typed (hp : p.Inv) {inRuntime : Bool}
    (h : View.typed parse p inRuntime = .ok v) : v.Inv parse p ∧ p.closed = false := by
  unfold View.typed at h
  simp only [foldl_good] at h
  split at h
  · cases h
  · rename_i hopen
    have hclosed : p.closed = false := by
      rw [← hp.closed]
      simpa using hopen
    split at h
    · cases h
    · rename_i x hgood
      split at h
      · cases h
        have hdocument : p.sender.value.document.isSome := by
          rw [Option.isSome_iff_ne_none]
          intro hnone
          rw [hnone, (hp.empty hnone).1] at hgood
          cases hgood
        refine ⟨⟨Nat.le_refl _, ?_, hdocument, fun _ _ => head?_reverse_inputs hdocument,
          exists_of_lastGood hgood, ⟨rfl, hgood, rfl⟩, nofun⟩, hclosed⟩
        intro d hd
        rcases mem_inputs (List.mem_reverse.mp hd) with hd | hd
        · exact hp.baseline d hd
        · exact hp.document d hd
      · cases h

/-- The publisher's operations keep what a view knows. -/
theorem View.Inv.publisher (h : v.Inv parse p) (hs : PublisherStep p p') : v.Inv parse p' := by
  have htaken := fun d hd => hs.documents_subset (h.taken d hd)
  have hdocument := hs.document h.document
  have hended : v.task = .ended →
      p'.closed = true ∨ v.held = false ∨ Usize.size ≤ v.revision + 1 := by
    intro hend
    rcases h.ended hend with hclosed | hrest
    · exact .inl (hs.closed_of hclosed ▸ hclosed)
    · exact .inr hrest
  rcases hs.sender with hsame | hversion
  · refine ⟨?_, htaken, hdocument, ?_, h.value, h.task, hended⟩ <;> rw [hsame]
    · exact h.seen_le
    · exact h.latest
  · have hle := h.seen_le
    refine ⟨by omega, htaken, hdocument, ?_, h.value, h.task, hended⟩
    intro hseen
    omega

/-- What one step of a view's task does to what the view shows. -/
inductive ViewStep (parse : ConfigDocument → Except ConfigError T) (v : View T) : View T → Prop where
  | keep {v' : View T} (hsender : v'.sender = v.sender) (hheld : v'.held = v.held) :
      ViewStep parse v v'
  | send (revision : Nat) (value : T) (htask : v.task = .sending revision value) :
      ViewStep parse v { v with
        task := .select
        sender := v.sender.sendReplace ⟨revision, value⟩ }

theorem View.sender_take (v : View T) (raw : Watch RawSnapshot) :
    (v.take parse raw).sender = v.sender ∧ (v.take parse raw).held = v.held := by
  unfold View.take
  dsimp only
  split
  · exact ⟨rfl, rfl⟩
  · split
    · exact ⟨rfl, rfl⟩
    · split
      · exact ⟨rfl, rfl⟩
      · split <;> exact ⟨rfl, rfl⟩

theorem viewStep_of_next {raw : Watch RawSnapshot} (h : v.next parse raw = some v') :
    ViewStep parse v v' := by
  unfold View.next at h
  split at h
  · split at h
    · cases h
      exact .keep (v.sender_take raw).1 (v.sender_take raw).2
    · cases h
  · cases h
    exact .keep rfl rfl
  · rename_i revision value htask
    cases h
    exact .send revision value htask
  · cases h
    exact .keep rfl rfl
  · cases h
    exact .keep rfl rfl
  · cases h

/-- A view that takes the latest snapshot has its document parsed. -/
theorem View.Inv.take (hp : p.Inv) (h : v.Inv parse p) (htask : v.task = .select) :
    (v.take parse p.sender).Inv parse p := by
  have hinv := h.task
  unfold View.TaskInv at hinv
  rw [htask] at hinv
  obtain ⟨hrevision, hgood, -⟩ := hinv
  obtain ⟨d, hd⟩ := Option.isSome_iff_exists.mp h.document
  have htaken : ∀ e ∈ d :: v.taken, e ∈ p.documents :=
    List.forall_mem_cons.mpr ⟨hp.document d hd, h.taken⟩
  obtain ⟨g, hg, hvalue⟩ := h.value
  have hmem : ∃ g ∈ d :: v.taken, parse g = .ok v.sender.value.value :=
    ⟨g, List.mem_cons_of_mem _ hg, hvalue⟩
  unfold View.take
  dsimp only
  split
  · rename_i hclosed
    exact ⟨Nat.le_refl _, h.taken, h.document, fun _ hopen => absurd hclosed (by simp [hopen]),
      h.value, trivial, fun _ => .inl (hp.closed ▸ hclosed)⟩
  · simp only [hd]
    cases hparse : parse d with
    | error e =>
      refine ⟨Nat.le_refl _, htaken, h.document, fun _ _ => hd.symm, hmem, ⟨hrevision, ?_, ?_⟩,
        nofun⟩
      · exact (lastGood_cons_error hparse v.taken).trans hgood
      · exact lastError_cons_error hparse v.taken
    | ok x =>
      cases hadd : Usize.checkedAdd v.revision 1 with
      | none =>
        refine ⟨Nat.le_refl _, htaken, h.document, fun _ _ => hd.symm, hmem, ?_, nofun⟩
        by_contra hlt
        have hsome := Usize.checkedAdd_eq_some_iff.mpr ⟨Nat.not_le.mp hlt, rfl⟩
        rw [hadd] at hsome
        cases hsome
      | some revision =>
        exact ⟨Nat.le_refl _, htaken, h.document, fun _ _ => hd.symm, hmem,
          ⟨hrevision, (Usize.checkedAdd_eq_some_iff.mp hadd).2, d, v.taken, rfl, hparse⟩, nofun⟩

theorem View.Inv.next (hp : p.Inv) (h : v.Inv parse p) (hn : v.next parse p.sender = some v') :
    v'.Inv parse p := by
  have hinv := h.task
  unfold View.TaskInv at hinv
  unfold View.next at hn
  split at hn
  · rename_i htask
    split at hn
    · cases hn
      exact h.take hp htask
    · cases hn
  · rename_i revision value htask
    cases hn
    rw [htask] at hinv
    obtain ⟨hsent, rfl, hparsed⟩ := hinv
    exact ⟨h.seen_le, h.taken, h.document, h.latest, h.value,
      ⟨by rw [hsent], rfl, rfl, hparsed⟩, nofun⟩
  · rename_i revision value htask
    cases hn
    rw [htask] at hinv
    obtain ⟨hnext, hrevision, herror, d, taken, htaken, hparse⟩ := hinv
    refine ⟨h.seen_le, h.taken, h.document, h.latest, ⟨d, ?_, hparse⟩,
      ⟨hrevision.symm, ?_, ?_⟩, nofun⟩
    · rw [htaken]
      exact List.mem_cons_self ..
    · show lastGood parse v.taken = _
      rw [htaken, lastGood_cons_ok hparse]
      rfl
    · show v.errorSender.value = lastError parse v.taken
      rw [herror, htaken, lastError_cons_ok hparse]
  · rename_i e htask
    cases hn
    rw [htask] at hinv
    obtain ⟨hrevision, hgood, herror⟩ := hinv
    exact ⟨h.seen_le, h.taken, h.document, h.latest, h.value,
      ⟨hrevision, hgood, herror.symm⟩, nofun⟩
  · rename_i htask
    cases hn
    rw [htask] at hinv
    exact ⟨h.seen_le, h.taken, h.document, h.latest, h.value, trivial, fun _ => .inr (.inr hinv)⟩
  · cases hn

end Views

/-! ## Threads -/

/-- The publisher is finished before the close result is sent. -/
def WorkerPhase.hasFinished : WorkerPhase → Bool
  | .closed _ | .finished | .activationAborted | .cleanupAborted | .dropped => true
  | _ => false

def Call.hasFinished : Call T → Bool
  | .sendActivation _ | .sendClose => true
  | _ => false

def Call.view? : Call T → Option (View T)
  | .view v => some v
  | _ => none

/-- The atomic steps, as far as the publisher, the close result and the views go. -/
inductive SourceStep (parse : ConfigDocument → Except ConfigError T) (s : Source) :
    Call T → Source → Call T → Prop where
  | publish {document : ConfigDocument} {publisher : Publisher}
      (h : s.publisher.publish document = .ok publisher) :
      SourceStep parse s (.publish document) { s with publisher } (.published (.ok ()))
  | finish (e : ConfigError) : SourceStep parse s (.finish e) s.finish (.sendActivation e)
  | sendActivation (e : ConfigError) :
      SourceStep parse s (.sendActivation e) (s.sendActivation (.error e)) .sendClose
  | sendClose : SourceStep parse s .sendClose { s.sendClose (.ok ()) with locked := false } .done
  | dropPublisher : SourceStep parse s .dropPublisher s.finish .done
  | typed {v : View T} {inRuntime : Bool} (h : View.typed parse s.publisher inRuntime = .ok v) :
      SourceStep parse s .inputs s (.view v)
  | view {v v' : View T} (h : v.next parse s.publisher.sender = some v') :
      SourceStep parse s (.view v) s (.view v')
  | drop (v : View T) : SourceStep parse s (.view v) s (.view { v with held := false })
  | closed {v : View T} (htask : v.task = .select) (hheld : v.held = false) :
      SourceStep parse s (.view v) s (.view { v with task := .ended })
  | worker {s' : Source} {provided : Provided} (h : s.workerNext provided = some s') :
      SourceStep parse s .runtime s' .runtime
  | abort {s' : Source} (h : s.workerAbort = some s') : SourceStep parse s .runtime s' .runtime
  | other {t t' : Call T} {s' : Source} (hpublisher : s'.publisher = s.publisher)
      (hclose : s'.closeResult = s.closeResult)
      (hworker : s'.worker.phase = s.worker.phase ∨ s'.worker.phase = .activating)
      (hview : t.view? = none) (hview' : t'.view? = none) (hfinished : t'.hasFinished = false) :
      SourceStep parse s t s' t'

theorem sourceStep_of_next {s s' : Source} {t t' : Call T} {a : Action}
    (h : s.next parse t a = some (s', t')) : SourceStep parse s t s' t' := by
  revert h
  fun_cases Source.next parse s t a <;> intro h
  case case29 =>
    obtain ⟨v', hv, he⟩ := Option.map_eq_some_iff.mp h
    cases he
    exact .view hv
  case case30 =>
    cases h
    exact .drop _
  case case31 hheld htask =>
    cases h
    exact .closed htask hheld
  case case34 =>
    obtain ⟨s', hs, he⟩ := Option.map_eq_some_iff.mp h
    cases he
    exact .worker hs
  case case35 =>
    obtain ⟨s', hs, he⟩ := Option.map_eq_some_iff.mp h
    cases he
    exact .abort hs
  all_goals first
    | cases h; exact .other rfl rfl (.inl rfl) rfl rfl rfl
    | cases h; exact .other rfl rfl (.inr rfl) rfl rfl rfl
    | cases h; constructor <;> assumption
    | cases h

section Steps

variable {s s' : Source} {t t' : Call T}

theorem publisherStep_of_workerNext (hp : s.publisher.Inv) {provided : Provided}
    (h : s.workerNext provided = some s') : PublisherStep s.publisher s'.publisher := by
  revert h
  fun_cases Source.workerNext s provided <;> intro h <;> cases h
  case case4.refl document r publisher _ hinitial =>
    have hs := publisherStep_publishInitial hp document
    rw [hinitial] at hs
    exact hs
  all_goals first
    | exact .same
    | exact publisherStep_finish _

theorem SourceStep.publisher (hs : SourceStep parse s t s' t') (hp : s.publisher.Inv) :
    PublisherStep s.publisher s'.publisher := by
  cases hs with
  | publish h => exact publisherStep_of_publish h
  | finish | dropPublisher => exact publisherStep_finish _
  | worker h => exact publisherStep_of_workerNext hp h
  | abort h =>
    unfold Source.workerAbort at h
    split at h <;> cases h <;> exact .same
  | other hpublisher =>
    rw [hpublisher]
    exact .same
  | _ => exact .same

/-- A view after a step is the one there was, one step of it, or a new one. -/
theorem SourceStep.view? (hs : SourceStep parse s t s' t') {v : View T}
    (hv : t'.view? = some v) :
    s' = s ∧ ((∃ u, t = .view u ∧ (u.next parse s.publisher.sender = some v ∨
      v = { u with held := false } ∨
      u.task = .select ∧ u.held = false ∧ v = { u with task := .ended })) ∨
      t = .inputs ∧ ∃ inRuntime, View.typed parse s.publisher inRuntime = .ok v) := by
  cases hs with
  | typed h =>
    cases hv
    exact ⟨rfl, .inr ⟨rfl, _, h⟩⟩
  | view h =>
    cases hv
    exact ⟨rfl, .inl ⟨_, rfl, .inl h⟩⟩
  | drop u =>
    cases hv
    exact ⟨rfl, .inl ⟨_, rfl, .inr (.inl rfl)⟩⟩
  | closed htask hheld =>
    cases hv
    exact ⟨rfl, .inl ⟨_, rfl, .inr (.inr ⟨htask, hheld, rfl⟩)⟩⟩
  | other hpublisher hclose hworker hview hview' =>
    rw [hview'] at hv
    cases hv
  | _ => cases hv

theorem Publisher.closed_finish (p : Publisher) : p.finish.closed = true := by
  unfold Publisher.finish
  split
  · assumption
  · rfl

/-- The close result is sent after the publisher was finished. -/
structure Source.Closing (s : Source) : Prop where
  result : s.closeResult.value.isSome → s.publisher.closed = true
  worker : s.worker.phase.hasFinished = true → s.publisher.closed = true

theorem Source.Closing.workerNext (h : s.Closing) (hp : s.publisher.Inv) {provided : Provided}
    (hs : s.workerNext provided = some s') : s'.Closing := by
  have hpublisher := publisherStep_of_workerNext hp hs
  have hclosed : s.publisher.closed = true → s'.publisher.closed = true :=
    fun hc => hpublisher.closed_of hc ▸ hc
  revert hs
  fun_cases Source.workerNext s provided <;> intro hs <;> cases hs
  all_goals first
    | refine ⟨fun hr => hclosed (h.result hr), ?_⟩
      rintro ⟨⟩
      done
    | exact ⟨fun _ => Publisher.closed_finish _, fun _ => Publisher.closed_finish _⟩
    | have hdone : s.publisher.closed = true := h.worker (by simp_all [WorkerPhase.hasFinished])
      exact ⟨fun _ => hdone, fun _ => hdone⟩

theorem SourceStep.closing (hs : SourceStep parse s t s' t') (h : s.Closing) (hp : s.publisher.Inv)
    (ht : t.hasFinished = true → s.publisher.closed = true) : s'.Closing := by
  have hpublisher := hs.publisher hp
  have hclosed : s.publisher.closed = true → s'.publisher.closed = true :=
    fun hc => hpublisher.closed_of hc ▸ hc
  cases hs with
  | finish | dropPublisher =>
    exact ⟨fun _ => Publisher.closed_finish _, fun _ => Publisher.closed_finish _⟩
  | sendClose => exact ⟨fun _ => ht rfl, fun _ => ht rfl⟩
  | worker hw => exact h.workerNext hp hw
  | abort hw =>
    unfold Source.workerAbort at hw
    split at hw <;> cases hw <;> refine ⟨h.result, ?_⟩ <;> rintro ⟨⟩
  | other _ hclose hworker =>
    refine ⟨fun hr => hclosed (h.result (by rwa [hclose] at hr)), fun hw => ?_⟩
    rcases hworker with hsame | hactivating
    · rw [hsame] at hw
      exact hclosed (h.worker hw)
    · rw [hactivating] at hw
      cases hw
  | _ => exact ⟨fun hr => hclosed (h.result hr), fun hw => hclosed (h.worker hw)⟩

theorem SourceStep.hasFinished (hs : SourceStep parse s t s' t')
    (ht : t.hasFinished = true → s.publisher.closed = true) (h' : t'.hasFinished = true) :
    s'.publisher.closed = true := by
  cases hs with
  | finish => exact Publisher.closed_finish _
  | sendActivation => exact ht rfl
  | other _ _ _ _ _ hfinished =>
    rw [hfinished] at h'
    cases h'
  | _ => cases h'

end Steps

/-! ## Runs -/

structure Inv (parse : ConfigDocument → Except ConfigError T) (s : Source) (ts : List (Call T)) :
    Prop where
  publisher : s.publisher.Inv
  views : ∀ t ∈ ts, ∀ v, t.view? = some v → v.Inv parse s.publisher
  closing : s.Closing
  calls : ∀ t ∈ ts, t.hasFinished = true → s.publisher.closed = true

theorem inv_run (parse : ConfigDocument → Except ConfigError T)
    (es : List (Event CallKind Action)) :
    Inv parse ((hot parse).run es).shared ((hot parse).run es).threads := by
  refine (hot parse).invariant (I := fun p => Inv parse p.shared p.threads) ?_ ?_ ?_ es
  · refine ⟨Publisher.inv_new, fun t ht => absurd ht List.not_mem_nil, ⟨?_, ?_⟩,
      fun t ht => absurd ht List.not_mem_nil⟩ <;> rintro ⟨⟩
  · intro p kind h
    refine ⟨h.publisher, ?_, h.closing, ?_⟩ <;> intro t ht
    · rcases List.mem_append.mp ht with ht | ht
      · exact h.views t ht
      · rw [List.mem_singleton.mp ht]
        cases kind <;> exact fun _ hv => nomatch hv
    · rcases List.mem_append.mp ht with ht | ht
      · exact h.calls t ht
      · rw [List.mem_singleton.mp ht]
        cases kind <;> exact fun hf => nomatch hf
  · intro p i t a s' t' h hi hn
    have hs := sourceStep_of_next hn
    have hpublisher := hs.publisher h.publisher
    have hmem := List.mem_of_getElem? hi
    refine ⟨hpublisher.inv h.publisher, ?_, hs.closing h.closing h.publisher (h.calls t hmem), ?_⟩
      <;> intro u hu
    · intro v hv
      rcases (mem_set_iff hi).mp hu with rfl | ⟨j, -, hj⟩
      · obtain ⟨rfl, ⟨w, rfl, hw⟩ | ⟨-, inRuntime, htyped⟩⟩ := hs.view? hv
        · have hinv := h.views _ hmem w rfl
          rcases hw with hnext | rfl | ⟨htask, hheld, rfl⟩
          · exact hinv.next h.publisher hnext
          · exact ⟨hinv.seen_le, hinv.taken, hinv.document, hinv.latest, hinv.value, hinv.task,
              fun _ => .inr (.inl rfl)⟩
          · exact ⟨hinv.seen_le, hinv.taken, hinv.document, hinv.latest, hinv.value, trivial,
              fun _ => .inr (.inl hheld)⟩
        · exact (View.inv_of_typed h.publisher htyped).1
      · exact (h.views u (List.mem_of_getElem? hj) v hv).publisher hpublisher
    · intro hf
      rcases (mem_set_iff hi).mp hu with rfl | ⟨j, -, hj⟩
      · exact hs.hasFinished (h.calls t hmem) hf
      · have hc := h.calls u (List.mem_of_getElem? hj) hf
        exact hpublisher.closed_of hc ▸ hc

end Fusen.Config
