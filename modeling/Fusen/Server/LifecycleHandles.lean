import Fusen.Server.LifecycleParties

/-!
# The registrations of a running server

The handles of the registrations move on and are never lost (`handles_of_step`), and a server
that is up has one for each planned registration, all of them active (`registered_run`).  A
startup that fails asks for the close of every activation it drops (`owned_run`).
-/

namespace Fusen.Server

open Lib Contract Register Fusen.Runtime

/-! ## One registration -/

/-- An operation goes on; `asked` says whether it may be asked for. -/
def Operation.Leads (asked : Bool) (o o' : Operation) : Prop :=
  o' = o ∨ (o = .pending ∨ o = .idle ∧ asked = true) ∧ o' ≠ .idle

section

variable {asked : Bool} {o o' o'' : Operation} {r : RegistryResult}

theorem Operation.Leads.trans (h : o.Leads asked o') (h' : o'.Leads asked o'') :
    o.Leads asked o'' := by
  rcases h with rfl | ⟨ho, hne⟩
  · exact h'
  · rcases h' with rfl | ⟨-, hne'⟩
    · exact .inr ⟨ho, hne⟩
    · exact .inr ⟨ho, hne'⟩

theorem Operation.Leads.done (h : o.Leads asked o') (hr : o = .done r) : o' = .done r := by
  rcases h with rfl | ⟨ho | ⟨ho, -⟩, -⟩
  · exact hr
  · rw [hr] at ho
    cases ho
  · rw [hr] at ho
    cases ho

theorem Operation.Leads.idle (h : o.Leads false o') (hidle : o = .idle) : o' = .idle := by
  rcases h with rfl | ⟨hpending | ⟨-, hfalse⟩, -⟩
  · exact hidle
  · rw [hidle] at hpending
    cases hpending
  · cases hfalse

theorem Operation.Leads.not_idle (h : o.Leads asked o') (hidle : o ≠ .idle) : o' ≠ .idle := by
  rcases h with rfl | ⟨-, hne⟩
  · exact hidle
  · exact hne

/-- What nobody asks for is under way only if it was. -/
theorem Operation.Leads.pending (h : o.Leads false o') (hpending : o' = .pending) :
    o = .pending := by
  rcases h with rfl | ⟨ho | ⟨-, hfalse⟩, -⟩
  · exact hpending
  · exact ho
  · cases hfalse

theorem Operation.leads_request (o : Operation) : o.Leads true o.request := by
  cases o with
  | idle => exact .inr ⟨.inr ⟨rfl, rfl⟩, nofun⟩
  | pending => exact .inl rfl
  | done r => exact .inl rfl

end

/-- What can become of a registration; `starting` and `closing` say whether its activation and
its close may be asked for. -/
structure Handle.Moves (starting closing : Bool) (h h' : Handle) : Prop where
  name : h'.name = h.name
  activation : h.activation.Leads starting h'.activation
  close : h.close.Leads closing h'.close

namespace Handle.Moves

variable {starting closing : Bool} {h h' h'' : Handle}

theorem refl (starting closing : Bool) (h : Handle) : Handle.Moves starting closing h h :=
  ⟨rfl, .inl rfl, .inl rfl⟩

theorem trans (hm : Handle.Moves starting closing h h')
    (hm' : Handle.Moves starting closing h' h'') : Handle.Moves starting closing h h'' :=
  ⟨hm'.name.trans hm.name, hm.activation.trans hm'.activation, hm.close.trans hm'.close⟩

end Handle.Moves

/-! ## All of them -/

/-- The registrations move on, each for itself. -/
def HandlesMove (starting closing : Bool) (hs hs' : List Handle) : Prop :=
  List.Forall₂ (Handle.Moves starting closing) hs hs'

section

variable {starting closing : Bool} {hs hs' : List Handle}

theorem handlesMove_refl (starting closing : Bool) (hs : List Handle) :
    HandlesMove starting closing hs hs :=
  List.forall₂_same.mpr fun h _ => Handle.Moves.refl starting closing h

theorem handlesMove_modify (i : Nat) {f : Handle → Handle}
    (hf : ∀ h, Handle.Moves starting closing h (f h)) (hs : List Handle) :
    HandlesMove starting closing hs (hs.modify i f) := by
  induction hs generalizing i with
  | nil =>
    rw [List.modify_nil]
    exact .nil
  | cons h hs ih =>
    cases i with
    | zero => exact .cons (hf h) (handlesMove_refl starting closing hs)
    | succ i => exact .cons (.refl starting closing h) (ih i)

theorem HandlesMove.getElem? (hm : HandlesMove starting closing hs hs') {i : Nat} {h : Handle}
    (hi : hs[i]? = some h) : ∃ h', hs'[i]? = some h' ∧ Handle.Moves starting closing h h' := by
  induction hm generalizing i with
  | nil => cases hi
  | cons hhead _ ih =>
    cases i with
    | zero =>
      cases hi
      exact ⟨_, rfl, hhead⟩
    | succ i => exact ih hi

theorem HandlesMove.names (hm : HandlesMove starting closing hs hs') :
    hs'.map Handle.name = hs.map Handle.name := by
  induction hm with
  | nil => rfl
  | cons hhead _ ih => rw [List.map_cons, List.map_cons, ih, hhead.name]

theorem HandlesMove.length (hm : HandlesMove starting closing hs hs') : hs'.length = hs.length :=
  (List.Forall₂.length_eq hm).symm

theorem HandlesMove.before (hm : HandlesMove starting closing hs hs') {i : Nat} {h' : Handle}
    (hi : hs'[i]? = some h') : ∃ h, hs[i]? = some h ∧ Handle.Moves starting closing h h' := by
  have hlt : i < hs.length := hm.length ▸ (List.getElem?_eq_some_iff.mp hi).1
  obtain ⟨h'', hi'', hmoves⟩ := hm.getElem? (List.getElem?_eq_getElem hlt)
  rw [hi, Option.some.injEq] at hi''
  exact ⟨_, List.getElem?_eq_getElem hlt, hi'' ▸ hmoves⟩

theorem HandlesMove.mem (hm : HandlesMove starting closing hs hs') {h' : Handle}
    (hmem : h' ∈ hs') : ∃ h ∈ hs, Handle.Moves starting closing h h' := by
  obtain ⟨i, hi⟩ := List.mem_iff_getElem?.mp hmem
  obtain ⟨h, hh, hmoves⟩ := hm.before hi
  exact ⟨h, List.mem_of_getElem? hh, hmoves⟩

theorem HandlesMove.trans {hs'' : List Handle} (hm : HandlesMove starting closing hs hs')
    (hm' : HandlesMove starting closing hs' hs'') : HandlesMove starting closing hs hs'' := by
  induction hm generalizing hs'' with
  | nil => exact hm'
  | cons hhead _ ih =>
    obtain ⟨h'', hs'', hhead', htail', rfl⟩ := List.forall₂_cons_left_iff.mp hm'
    exact .cons (hhead.trans hhead') (ih htail')

theorem handlesMove_foldl (is : List Nat) {f : Handle → Handle}
    (hf : ∀ h, Handle.Moves starting closing h (f h)) (hs : List Handle) :
    HandlesMove starting closing hs (is.foldl (fun handles i => handles.modify i f) hs) := by
  induction is generalizing hs with
  | nil => exact handlesMove_refl starting closing hs
  | cons i is ih => exact (handlesMove_modify i hf hs).trans (ih _)

end

/-! ## The steps -/

namespace Running

variable {setup : Setup} {s s' : Running}

/-- The coordinator is past the listener, and closes the registrations. -/
def isWorking (s : Running) : Bool :=
  match s.coordinator with
  | .draining _ _ (.working ..) => true
  | _ => false

/-- The startup has failed, and the server drains. -/
def hasFailed (s : Running) : Bool :=
  match s.coordinator with
  | .draining (some _) _ _ => true
  | _ => false

theorem requestActivations_moves (closing : Bool) (started : List Nat) :
    HandlesMove true closing s.handles (s.requestActivations started).handles := by
  unfold requestActivations
  refine handlesMove_foldl started ?_ s.handles
  exact fun h => ⟨rfl, Operation.leads_request _, .inl rfl⟩

theorem requestCloses_moves (starting : Bool) (batch : List Nat) :
    HandlesMove starting true s.handles (s.requestCloses batch) := by
  unfold requestCloses
  refine handlesMove_foldl batch ?_ s.handles
  exact fun h => ⟨rfl, .inl rfl, Operation.leads_request _⟩

theorem pollCloses_moves (starting : Bool) {wake : Wake} {closes closes' : Closes}
    {handles : List Handle} (h : s.pollCloses wake closes = some (handles, closes')) :
    HandlesMove starting true s.handles handles := by
  have hstay := handlesMove_refl starting true s.handles
  unfold pollCloses at h
  split at h
  · cases h
  · cases h
    exact hstay
  · split at h
    · cases h
      exact hstay
    · cases h
      exact requestCloses_moves starting _
  · dsimp only at h
    split at h
    · cases h
      exact hstay
    · split at h
      · cases h
      · cases h
        exact hstay

/-- The registries ask for nothing. -/
theorem activationEnds_moves (setup : Setup) (starting closing : Bool) (i : Nat)
    (r : RegistryResult) :
    HandlesMove starting closing s.handles (s.step setup (.activationEnds i r)).handles := by
  refine handlesMove_modify i (fun h => ?_) _
  split
  · rename_i hpending
    exact ⟨rfl, .inr ⟨.inl hpending, nofun⟩, .inl rfl⟩
  · exact .refl _ _ h

theorem closeEnds_moves (setup : Setup) (starting closing : Bool) (i : Nat)
    (r : RegistryResult) :
    HandlesMove starting closing s.handles (s.step setup (.closeEnds i r)).handles := by
  refine handlesMove_modify i (fun h => ?_) _
  split
  · rename_i hpending
    exact ⟨rfl, .inl rfl, .inr ⟨.inl hpending, nofun⟩⟩
  · exact .refl _ _ h

/-- **No registration is lost**, and none is closed before the coordinator works, unless the
startup fails. -/
theorem handles_of_step (hstep : Step setup s s') :
    (∃ n planned, s.coordinator = .preparing n ∧ s'.coordinator = .preparing (n + 1) ∧
      setup.registrations[n]? = some planned ∧
      s'.handles = s.handles ++ [⟨planned.name, .idle, .idle⟩]) ∨
    HandlesMove true (s.isWorking || s'.hasFailed) s.handles s'.handles := by
  cases hstep with
  | prepared hc hn => exact .inl ⟨_, _, hc, rfl, hn, rfl⟩
  | activationTaken | activationPending => exact .inr (requestActivations_moves _ _)
  | @startupFailed _ _ _ started dropped e fatal =>
    have hclosing : (s.isWorking || hasFailed { s with
        coordinator := .draining (some e) fatal .storing }) = true := Bool.or_true _
    refine .inr ?_
    exact hclosing ▸
      (requestActivations_moves true started).trans (requestCloses_moves true dropped)
  | activationEnds i r => exact .inr (activationEnds_moves setup _ _ i r)
  | closeEnds i r => exact .inr (closeEnds_moves setup _ _ i r)
  | closesMove hc hcloses =>
    have hworking : s.isWorking = true := by
      unfold isWorking
      rw [hc]
    rw [hworking]
    exact .inr (pollCloses_moves true hcloses)
  | _ => exact .inr (handlesMove_refl _ _ _)

/-! ## Activation -/

/-- The handles are those of the first registrations. -/
def Named (setup : Setup) (handles : List Handle) : Prop :=
  handles.map Handle.name =
    (setup.registrations.take handles.length).map PlannedRegistration.name

/-- Every planned registration has a handle, and all of them are active. -/
structure AllActive (setup : Setup) (handles : List Handle) : Prop where
  names : handles.map Handle.name = setup.registrations.map PlannedRegistration.name
  active : ∀ h ∈ handles, h.activation = .done .ok

def ActiveAt (handles : List Handle) (i : Nat) : Prop :=
  ∃ h, handles[i]? = some h ∧ h.activation = .done .ok

/-- How far the registrations are, where the coordinator stands. -/
def Activations (setup : Setup) (handles : List Handle)
    (startup : Option (Except ServerError Unit)) : Coordinator → Prop
  | .accepting | .registering => handles = []
  | .preparing n => handles.length = n
  | .activating (.ok ()) waiting running =>
    handles.map Handle.name = setup.registrations.map PlannedRegistration.name ∧
      ∀ i < handles.length, i ∈ waiting ∨ i ∈ running ∨ ActiveAt handles i
  | .storingReady | .settingReady | .announcing | .serving | .draining none _ _ =>
    AllActive setup handles
  | .activating (.error _) _ _ | .draining (some _) _ _ | .failing _ => True
  | .storingStopped _ | .settingStopped _ | .completing _ | .finished =>
    startup = some (.ok ()) → AllActive setup handles

section

variable {handles handles' : List Handle} {starting closing : Bool}

theorem AllActive.moves (h : AllActive setup handles)
    (hm : HandlesMove starting closing handles handles') :
    AllActive setup handles' := by
  refine ⟨hm.names.trans h.names, fun h' hmem => ?_⟩
  obtain ⟨h₀, hh₀, hmoves⟩ := hm.mem hmem
  exact hmoves.activation.done (h.active h₀ hh₀)

theorem ActiveAt.moves {i : Nat} (h : ActiveAt handles i)
    (hm : HandlesMove starting closing handles handles') :
    ActiveAt handles' i := by
  obtain ⟨h₀, hi, hactive⟩ := h
  obtain ⟨h', hi', hmoves⟩ := hm.getElem? hi
  exact ⟨h', hi', hmoves.activation.done hactive⟩

/-- What others do to the registrations leaves them as far as they are. -/
theorem activations_moves {startup : Option (Except ServerError Unit)} {c : Coordinator}
    (h : Activations setup handles startup c) (hm : HandlesMove starting closing handles handles') :
    Activations setup handles' startup c := by
  cases c with
  | accepting | registering =>
    obtain rfl : handles = [] := h
    exact List.forall₂_nil_left_iff.mp hm
  | preparing n => exact hm.length.trans h
  | activating prepared waiting running =>
    cases prepared with
    | error e => trivial
    | ok u =>
      obtain ⟨hnames, hall⟩ := h
      refine ⟨hm.names.trans hnames, fun i hi => ?_⟩
      rw [hm.length] at hi
      exact (hall i hi).imp_right fun h => h.imp_right fun h => h.moves hm
  | storingReady | settingReady | announcing | serving => exact AllActive.moves h hm
  | draining startupError fatal stage =>
    cases startupError with
    | none => exact AllActive.moves h hm
    | some e => trivial
  | failing result => trivial
  | storingStopped result | settingStopped result | completing result =>
    exact fun hs => (h hs).moves hm
  | finished => exact fun hs => (h hs).moves hm

end

/-- `activate_registrations` lets go only of what is active. -/
theorem activeAt_of_takeActivation {i : Nat} (h : s.takeActivation i = .ok ())
    (hi : i < s.handles.length) : ActiveAt s.handles i := by
  unfold takeActivation at h
  cases hhandle : s.handles[i]? with
  | none =>
    rw [List.getElem?_eq_none_iff] at hhandle
    omega
  | some handle =>
    rw [hhandle] at h
    dsimp only at h
    refine ⟨handle, hhandle, ?_⟩
    cases hactivation : handle.activation with
    | done r =>
      rw [hactivation] at h
      cases r with
      | ok => rfl
      | err e => cases h
    | idle =>
      rw [hactivation] at h
      cases h
    | pending =>
      rw [hactivation] at h
      cases h

theorem allActive_of_all {handles : List Handle}
    (hnames : handles.map Handle.name = setup.registrations.map PlannedRegistration.name)
    (hall : ∀ i < handles.length, ActiveAt handles i) : AllActive setup handles := by
  refine ⟨hnames, fun h hmem => ?_⟩
  obtain ⟨i, hi, rfl⟩ := List.mem_iff_getElem.mp hmem
  obtain ⟨h', hi', hactive⟩ := hall i hi
  rw [List.getElem?_eq_getElem hi, Option.some.injEq] at hi'
  rwa [hi']

theorem activations_endOfDrain {startup : Option (Except ServerError Unit)}
    {startupError : Option ServerError} {fatal : Option Text} {stage : DrainStage} {handles : List Handle}
    (h : Activations setup handles startup (.draining startupError fatal stage))
    (result : Except ServerError Unit) :
    Activations setup handles startup (endOfDrain startupError result) := by
  rcases endOfDrain_cases startupError result with ⟨rfl, heq⟩ | ⟨_, e, rfl, heq, -⟩
  · rw [heq]
    exact fun _ => h
  · rw [heq]
    trivial

/-- What is kept of the registrations up to the end of the startup. -/
structure Registered (setup : Setup) (s : Running) : Prop where
  named : Named setup s.handles
  activations : Activations setup s.handles s.startup s.coordinator

theorem named_of_step (hstep : Step setup s s') (h : Registered setup s) :
    Named setup s'.handles := by
  rcases handles_of_step hstep with ⟨n, planned, hc, -, hn, heq⟩ | hm
  · have hlength := h.activations
    rw [hc] at hlength
    obtain rfl : s.handles.length = n := hlength
    unfold Named
    rw [heq, List.map_append, h.named, List.length_append, List.length_singleton,
      List.take_add_one, hn, List.map_append]
    rfl
  · unfold Named
    rw [hm.names, hm.length]
    exact h.named

theorem activations_of_step (hstep : Step setup s s') (hcells : Published s.state s.readiness
    s.startup s.completion s.coordinator) (h : Registered setup s) :
    Activations setup s'.handles s'.startup s'.coordinator := by
  have ha := h.activations
  have hmoves : ∀ {c : Coordinator}, s.coordinator = c → (∀ n, c ≠ .preparing n) ∨
      s'.coordinator = c → Activations setup s'.handles s.startup c := by
    intro c hc hne
    rcases handles_of_step hstep with ⟨n, planned, hc', hc'', -⟩ | hm
    · rcases hne with hne | hne
      · exact absurd (hc.symm.trans hc') (hne n)
      · rw [← hc, hc', hc''] at hne
        cases hne
    · exact activations_moves (hc ▸ ha) hm
  cases hstep with
  | accepting hc =>
    rw [hc] at ha
    exact ha
  | registering hc =>
    rw [hc] at ha
    exact congrArg List.length ha
  | prepared hc =>
    rw [hc] at ha
    exact (List.length_append).trans (congrArg (· + 1) ha)
  | preparationFailed => trivial
  | preparedAll hc hn =>
    rw [hc] at ha
    obtain rfl : s.handles.length = _ := ha
    refine ⟨?_, fun i hi => .inl (List.mem_range.mpr hi)⟩
    have hnamed := h.named
    unfold Named at hnamed
    rwa [List.take_of_length_le (List.getElem?_eq_none_iff.mp hn)] at hnamed
  | startupFailed => trivial
  | @activationTaken waiting running i hc hi =>
    obtain ⟨hnames, hall⟩ := hmoves hc (.inl nofun)
    refine ⟨hnames, fun j hj => ?_⟩
    by_cases hji : j = i
    · subst hji
      exact .inr (.inr (activeAt_of_takeActivation hi hj))
    · rcases hall j hj with hw | hr | hactive
      · rw [← List.take_append_drop (setup.concurrency - running.length) waiting,
          List.mem_append] at hw
        rcases hw with hw | hw
        · exact .inr (.inl ((List.mem_erase_of_ne hji).mpr (List.mem_append_right _ hw)))
        · exact .inl hw
      · exact .inr (.inl ((List.mem_erase_of_ne hji).mpr (List.mem_append_left _ hr)))
      · exact .inr (.inr hactive)
  | @activationPending waiting running hc =>
    obtain ⟨hnames, hall⟩ := hmoves hc (.inl nofun)
    refine ⟨hnames, fun j hj => ?_⟩
    rcases hall j hj with hw | hr | hactive
    · rw [← List.take_append_drop (setup.concurrency - running.length) waiting,
        List.mem_append] at hw
      rcases hw with hw | hw
      · exact .inr (.inl (List.mem_append_right _ hw))
      · exact .inl hw
    · exact .inr (.inl (List.mem_append_left _ hr))
    · exact .inr (.inr hactive)
  | activatedAll hc =>
    obtain ⟨hnames, hall⟩ := hmoves hc (.inl nofun)
    refine allActive_of_all hnames fun i hi => ?_
    rcases hall i hi with hw | hr | hactive
    · cases hw
    · cases hr
    · exact hactive
  | storingReady hc | settingReady hc | announcing hc | servingEnds hc =>
    have hactive := hmoves hc (.inl nofun)
    exact hactive
  | @drainStores startupError _ hc | @drainBegins startupError _ hc | @gateClosed startupError _ _ hc
  | @commandSent startupError _ hc | @listenerClosed startupError _ hc
  | @listenerLost startupError _ hc | @published startupError _ hc
  | @closesMove startupError _ _ _ _ _ _ _ _ hc | @outcomeReceived startupError _ _ _ _ _ hc =>
    cases startupError with
    | none =>
      have hactive := hmoves hc (.inl nofun)
      exact hactive
    | some e => trivial
  | listenerLate hc | workDone hc | workLate hc =>
    exact activations_endOfDrain (hmoves hc (.inl nofun)) _
  | failing hc =>
    rw [hc] at hcells
    obtain ⟨-, -, -, -, e, rfl⟩ := hcells
    rintro ⟨⟩
  | storingStopped hc | settingStopped hc | completing hc =>
    have hactive := hmoves hc (.inl nofun)
    exact hactive
  | _ => exact hmoves rfl (.inr rfl)

theorem registered_run (es : List ServerEvent) : Registered setup ((server setup).run es) :=
  invariant (J := fun s => Published s.state s.readiness s.startup s.completion s.coordinator)
    published_run ⟨rfl, rfl⟩
    (fun _ _ hcells hstep h => ⟨named_of_step hstep h, activations_of_step hstep hcells h⟩) es

/-! ## What a failed startup gives up -/

/-- No activation is under way whose close is not asked for. -/
def NonePending (handles : List Handle) : Prop :=
  ∀ h ∈ handles, h.activation = .pending → h.close ≠ .idle

/-- Which activations are under way, where the coordinator stands. -/
def Owned (handles : List Handle) : Coordinator → Prop
  | .accepting | .registering | .preparing _ | .activating (.error _) _ _ =>
    ∀ h ∈ handles, h.activation = .idle
  | .activating (.ok ()) _ running =>
    ∀ (i : Nat) h, handles[i]? = some h → h.activation = .pending → i ∈ running
  | _ => NonePending handles

section

variable {handles handles' : List Handle} {closing : Bool}

theorem NonePending.moves (h : NonePending handles)
    (hm : HandlesMove false closing handles handles') : NonePending handles' := by
  intro h' hmem hpending
  obtain ⟨h₀, hmem₀, hmoves⟩ := hm.mem hmem
  exact hmoves.close.not_idle (h h₀ hmem₀ (hmoves.activation.pending hpending))

theorem owned_moves {c : Coordinator} (h : Owned handles c)
    (hm : HandlesMove false closing handles handles') : Owned handles' c := by
  have hidle : (∀ h ∈ handles, h.activation = .idle) → ∀ h' ∈ handles', h'.activation = .idle := by
    intro hall h' hmem
    obtain ⟨h₀, hmem₀, hmoves⟩ := hm.mem hmem
    exact hmoves.activation.idle (hall h₀ hmem₀)
  cases c with
  | accepting | registering | preparing n => exact hidle h
  | activating prepared waiting running =>
    cases prepared with
    | error e => exact hidle h
    | ok u =>
      intro i h' hi hpending
      obtain ⟨h₀, hi₀, hmoves⟩ := hm.before hi
      exact h i h₀ hi₀ (hmoves.activation.pending hpending)
  | _ => exact NonePending.moves h hm

end

theorem owned_endOfDrain {handles : List Handle} (h : NonePending handles)
    (startupError : Option ServerError) (result : Except ServerError Unit) :
    Owned handles (endOfDrain startupError result) := by
  rcases endOfDrain_cases startupError result with ⟨-, heq⟩ | ⟨_, e, -, heq, -⟩ <;> rw [heq] <;>
    exact h

/-- An idempotent change of the registrations in a list. -/
theorem getElem?_foldl_modify {f : Handle → Handle} (hf : ∀ h, f (f h) = f h) (is : List Nat)
    (hs : List Handle) (i : Nat) :
    (is.foldl (fun handles i => handles.modify i f) hs)[i]? =
      if i ∈ is then hs[i]?.map f else hs[i]? := by
  induction is generalizing hs with
  | nil => rfl
  | cons j is ih =>
    rw [List.foldl_cons, ih]
    by_cases hji : j = i
    · subst hji
      rw [List.getElem?_modify_eq, if_pos (List.mem_cons_self (a := j) (l := is))]
      split
      · cases hs[j]? with
        | none => rfl
        | some h => exact congrArg some (hf h)
      · rfl
    · rw [List.getElem?_modify_ne _ _ hji]
      simp only [List.mem_cons, Ne.symm hji, false_or]

theorem Operation.request_request (o : Operation) : o.request.request = o.request := by
  cases o <;> rfl

/-- Only what is started can have been asked for. -/
theorem mem_or_of_requestActivations {started : List Nat} {i : Nat} {h : Handle}
    (hi : (s.requestActivations started).handles[i]? = some h) :
    i ∈ started ∨ s.handles[i]? = some h := by
  unfold requestActivations at hi
  dsimp only at hi
  rw [getElem?_foldl_modify fun h => by rw [Operation.request_request]] at hi
  split at hi
  · rename_i hmem
    exact .inl hmem
  · exact .inr hi

/-- A startup that fails asks for the close of each activation it drops. -/
theorem nonePending_of_dropped {dropped : List Nat}
    (h : ∀ (i : Nat) h, s.handles[i]? = some h → h.activation = .pending → i ∈ dropped) :
    NonePending (s.requestCloses dropped) := by
  intro handle hmem hpending
  obtain ⟨i, hi⟩ := List.mem_iff_getElem?.mp hmem
  unfold requestCloses at hi
  rw [getElem?_foldl_modify fun h => by rw [Operation.request_request]] at hi
  split at hi
  · obtain ⟨before, -, rfl⟩ := Option.map_eq_some_iff.mp hi
    dsimp only
    cases before.close <;> exact nofun
  · rename_i hnot
    exact absurd (h i handle hi hpending) hnot

theorem owned_of_step (hstep : Step setup s s') (h : Owned s.handles s.coordinator) :
    Owned s'.handles s'.coordinator := by
  -- who is under way when more activations begin
  have hrunning : ∀ {waiting running started : List Nat} {i : Nat} {handle : Handle},
      s.coordinator = .activating (.ok ()) waiting running →
      (s.requestActivations started).handles[i]? = some handle →
      handle.activation = .pending → i ∈ running ++ started := by
    intro waiting running started i handle hc hi hpending
    rw [hc] at h
    rcases mem_or_of_requestActivations hi with hmem | hi
    · exact List.mem_append_right _ hmem
    · exact List.mem_append_left _ (h i handle hi hpending)
  cases hstep with
  | accepting hc | registering hc =>
    rw [hc] at h
    exact h
  | prepared hc =>
    rw [hc] at h
    intro handle hmem
    rcases List.mem_append.mp hmem with hmem | hmem
    · exact h handle hmem
    · rw [List.mem_singleton.mp hmem]
  | preparationFailed hc =>
    rw [hc] at h
    exact h
  | preparedAll hc =>
    rw [hc] at h
    intro i handle hi hpending
    rw [h handle (List.mem_of_getElem? hi)] at hpending
    cases hpending
  | @startupFailed prepared waiting running started dropped e fatal queued hc hdropped =>
    refine nonePending_of_dropped (s := s.requestActivations started) fun i handle hi hpending => ?_
    have hmem : i ∈ running ++ started := by
      cases prepared with
      | ok u => exact hrunning hc hi hpending
      | error e =>
        rw [hc] at h
        rcases mem_or_of_requestActivations hi with hmem | hi
        · exact List.mem_append_right _ hmem
        · rw [h handle (List.mem_of_getElem? hi)] at hpending
          cases hpending
    rcases hdropped i hmem with hin | hended
    · exact hin
    · unfold activated at hended
      rw [hi] at hended
      dsimp only at hended
      rw [hpending] at hended
      cases hended
  | @activationTaken waiting running i hc htaken =>
    intro j handle hj hpending
    have hmem := hrunning hc hj hpending
    refine (List.mem_erase_of_ne ?_).mpr hmem
    rintro rfl
    unfold takeActivation at htaken
    rw [hj] at htaken
    dsimp only at htaken
    rw [hpending] at htaken
    cases htaken
  | activationPending hc => exact fun i handle hi hpending => hrunning hc hi hpending
  | activatedAll hc =>
    rw [hc] at h
    intro handle hmem hpending
    obtain ⟨i, hi⟩ := List.mem_iff_getElem?.mp hmem
    cases h i handle hi hpending
  | closesMove hc hcloses =>
    rw [hc] at h
    exact NonePending.moves h (pollCloses_moves false hcloses)
  | listenerLate hc | workDone hc | workLate hc =>
    rw [hc] at h
    exact owned_endOfDrain h _ _
  | storingReady hc | settingReady hc | announcing hc | servingEnds hc | drainStores hc
  | drainBegins hc | gateClosed hc | commandSent hc | listenerClosed hc | listenerLost hc
  | published hc | outcomeReceived hc | failing hc | storingStopped hc | settingStopped hc
  | completing hc =>
    rw [hc] at h
    exact h
  | activationEnds i r => exact owned_moves h (activationEnds_moves setup false false i r)
  | closeEnds i r => exact owned_moves h (closeEnds_moves setup false false i r)
  | _ => exact h

theorem owned_run (es : List ServerEvent) :
    Owned ((server setup).run es).handles ((server setup).run es).coordinator :=
  invariant (J := fun _ => True) (I := fun s => Owned s.handles s.coordinator)
    (fun _ => trivial) (fun _ hmem => by cases hmem) (fun _ _ _ hstep h => owned_of_step hstep h) es

end Running

end Fusen.Server
