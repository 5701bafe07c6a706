import Fusen.Contract.Registration
import Fusen.Resilience.Classify
import Fusen.Resilience.Retry

/-!
# Responses and interceptor chains (`context.rs`, `interceptor.rs`)

What a run does to the outside is the list of its `Event`s: requests handed to the
transport, metrics, breaker permits, retry decisions and waits.  A response owns the
completion of the attempt it comes from (`AttemptMetricCompletion`) and, once the
attempts are over, the permit of the service breaker; when it is dropped, both go.

An interceptor enters the rest of its chain or does not, and then replies.  Whatever
it does with the context, what it leaves behind is one of the `Reply`s: only
the runtime sets the other fields of a response.  A result is missing (`none`) when
the future that would produce it has been dropped.
-/

namespace Fusen.Invocation

open Lib Contract Resilience

/-! ## Events -/

inductive Event
  | selected (attempt : Nat) (endpoint : ServiceEndpoint)
  /-- An endpoint breaker's permit that was taken and not used. -/
  | released (endpoint : ServiceEndpoint)
  | sent (attempt : Nat)
  /-- What the attempt's terminal saw fail. -/
  | observed (attempt : Nat) (failure : FailureClass)
  | attemptFinished (attempt : Nat) (failure : Option FailureClass)
  | endpointBreaker (attempt : Nat) (outcome : PermitOutcome)
  | serviceBreaker (outcome : PermitOutcome)
  | decided (attempt : Nat) (context : RetryDecisionContext) (decision : Option RetryDecision)
      (now : Nat) (before after : BudgetState)
  | waiting (attempt : Nat) (delay : Nat)
  /-- The body of the attempt's response is not a value of the return type. -/
  | undecodable (attempt : Nat)

/-! ## Responses -/

/-- What the runtime reads of a `Response<Body>`; `attemptCompletion` is the number of
the attempt whose completion the response holds. -/
structure Response where
  attempts : Nat
  wireOrigin : Bool
  tracksEndpointBreaker : Bool
  serviceBreakerPermit : Bool
  attemptCompletion : Option Nat
  body : Text
deriving DecidableEq

namespace Response

/-- `finish_attempt`: a finished completion does not record again when it is dropped. -/
def finishAttempt (response : Response) (failure : Option FailureClass) : List Event :=
  response.attemptCompletion.toList.map fun attempt => .attemptFinished attempt failure

def drop (response : Response) : List Event :=
  response.finishAttempt none ++
    if response.serviceBreakerPermit then [.serviceBreaker .abandoned] else []

end Response

abbrev InterceptorResult := Except Error Response

def InterceptorResult.drop : InterceptorResult → List Event
  | .ok response => response.drop
  | .error _ => []

theorem InterceptorResult.ok_ne_error {response : Response} {e : Error} :
    (some (.ok response) : Option InterceptorResult) ≠ some (.error e) := nofun

/-- A response from elsewhere: a new one, or a copy of one of another invocation.  What a
copy holds of that invocation's permits and completions is that invocation's concern. -/
structure ForeignResponse where
  attempts : Nat
  wireOrigin : Bool
  tracksEndpointBreaker : Bool
  body : Text

def ForeignResponse.toResponse (r : ForeignResponse) : Response :=
  ⟨r.attempts, r.wireOrigin, r.tracksEndpointBreaker, false, none, r.body⟩

/-! ## Interceptors -/

inductive Reply
  /-- The result of the rest as it is, up to status and headers. -/
  | same
  /-- The response of the rest with another body (`body_mut`, `map`). -/
  | edited (body : Text)
  | foreign (r : ForeignResponse)
  | error (e : Error)

/-- `keeps` says whether a clone of the response of the rest outlives the reply: a response is
dropped for good with its last clone. -/
structure Interceptor where
  callsNext : Bool
  reply : Option InterceptorResult → Option Reply
  keeps : Option InterceptorResult → Bool

def interceptorPanicked : Error := .framework .internal "interceptor_panic" "interceptor failed".toList

/-- An interceptor that takes the result of the rest for an error. -/
def Interceptor.fault (e : Error) : Interceptor :=
  ⟨true, fun _ => some (.error e), fun _ => false⟩

/-- What goes with the result of the rest, unless a clone of it is kept. -/
def dropped (kept : Bool) (result : Option InterceptorResult) : List Event :=
  if kept then [] else (result.map (·.drop)).getD []

/-- The reply to the result of the rest, and what it drops. -/
def Reply.apply (kept : Bool) (result : Option InterceptorResult) : Option Reply →
    List Event × Option InterceptorResult
  | none => (dropped kept result, none)
  | some .same => ([], result)
  | some (.edited body) =>
    match result with
    | some (.ok response) => ([], some (.ok { response with body, wireOrigin := false }))
    | other => ([], other)
  | some (.foreign r) => (dropped kept result, some (.ok r.toResponse))
  | some (.error e) => (dropped kept result, some (.error e))

/-- What a chain did: its events, the state its terminal leaves, and its result. -/
structure Ran (σ : Type) where
  events : List Event
  side : σ
  result : Option InterceptorResult

/-- `Next::run`: `idle` is the state if the terminal is not called. -/
def Next.run {σ : Type} (terminal : Ran σ) (idle : σ) : List Interceptor → Ran σ
  | [] => terminal
  | interceptor :: remaining =>
    let inner := if interceptor.callsNext then Next.run terminal idle remaining else ⟨[], idle, none⟩
    let replied :=
      Reply.apply (interceptor.keeps inner.result) inner.result (interceptor.reply inner.result)
    ⟨inner.events ++ replied.1, inner.side, replied.2⟩

/-- Whether every interceptor of the chain calls the next. -/
def reachesTerminal (chain : List Interceptor) : Bool := chain.all Interceptor.callsNext

/-! ## What a chain keeps -/

/-- A settlement: what finishing or dropping a permit or a completion says. -/
def Event.isSettlement : Event → Bool
  | .attemptFinished _ _ | .endpointBreaker _ _ | .serviceBreaker _ | .undecodable _ => true
  | _ => false

/-- What dropping a response says. -/
def Event.isDrop : Event → Prop
  | .attemptFinished _ failure => failure = none
  | .serviceBreaker outcome => outcome = .abandoned
  | _ => False

theorem Event.isSettlement_of_isDrop {event : Event} (h : event.isDrop) :
    event.isSettlement = true := by
  cases event <;> first | rfl | exact absurd h id

theorem Response.mem_drop {response : Response} {event : Event} (h : event ∈ response.drop) :
    event.isDrop := by
  unfold Response.drop Response.finishAttempt at h
  rcases List.mem_append.mp h with h | h
  · obtain ⟨attempt, -, rfl⟩ := List.mem_map.mp h
    rfl
  · split at h
    · rw [List.mem_singleton.mp h]
      rfl
    · nomatch h

theorem mem_dropped {kept : Bool} {result : Option InterceptorResult} {event : Event}
    (h : event ∈ dropped kept result) : event.isDrop := by
  unfold dropped at h
  split at h
  · nomatch h
  · rcases result with - | e | response
    · nomatch h
    · nomatch h
    · exact Response.mem_drop h

theorem Reply.mem_apply {kept : Bool} {result : Option InterceptorResult} {reply : Option Reply}
    {event : Event} (h : event ∈ (Reply.apply kept result reply).1) : event.isDrop := by
  rcases reply with - | - | body | r | e
  · exact mem_dropped h
  · nomatch h
  · rcases result with - | e | response <;> nomatch h
  · exact mem_dropped h
  · exact mem_dropped h

section Chain

variable {σ : Type} {terminal : Ran σ} {idle : σ} {chain : List Interceptor}

theorem Next.run_cons (i : Interceptor) :
    Next.run terminal idle (i :: chain) =
      let inner := if i.callsNext then Next.run terminal idle chain else ⟨[], idle, none⟩
      ⟨inner.events ++ (Reply.apply (i.keeps inner.result) inner.result (i.reply inner.result)).1,
        inner.side, (Reply.apply (i.keeps inner.result) inner.result (i.reply inner.result)).2⟩ :=
  rfl

theorem Next.run_side :
    (Next.run terminal idle chain).side = if reachesTerminal chain then terminal.side else idle := by
  induction chain with
  | nil => rfl
  | cons i chain ih =>
    rw [Next.run_cons]
    unfold reachesTerminal at ih ⊢
    cases hnext : i.callsNext with
    | false => simp [hnext]
    | true => simpa [hnext] using ih

/-- The events of a chain are those of its terminal, if it was called, and then drops. -/
theorem Next.run_events :
    ∃ drops, (Next.run terminal idle chain).events =
      (if reachesTerminal chain then terminal.events else []) ++ drops ∧
        ∀ event ∈ drops, event.isDrop := by
  induction chain with
  | nil => exact ⟨[], (List.append_nil _).symm, fun _ h => nomatch h⟩
  | cons i chain ih =>
    rw [Next.run_cons]
    unfold reachesTerminal at ih ⊢
    cases hnext : i.callsNext with
    | false =>
      exact ⟨(Reply.apply (i.keeps none) none (i.reply none)).1, by simp [hnext],
        fun event h => Reply.mem_apply h⟩
    | true =>
      obtain ⟨drops, hevents, hdrops⟩ := ih
      let result := (Next.run terminal idle chain).result
      refine ⟨drops ++ (Reply.apply (i.keeps result) result (i.reply result)).1, ?_, ?_⟩
      · simp [hnext, hevents, result]
      · intro event h
        rcases List.mem_append.mp h with h | h
        · exact hdrops event h
        · exact Reply.mem_apply h

/-- What holds of the terminal's result and is kept by every reply holds of the chain's. -/
theorem Next.run_result {P : Option InterceptorResult → Prop} (hnone : P none)
    (hterminal : reachesTerminal chain = true → P terminal.result)
    (hreply : ∀ i ∈ chain, ∀ result, P result →
      P (Reply.apply (i.keeps result) result (i.reply result)).2) :
    P (Next.run terminal idle chain).result := by
  induction chain with
  | nil => exact hterminal rfl
  | cons i chain ih =>
    rw [Next.run_cons]
    apply hreply i (List.mem_cons_self ..)
    cases hnext : i.callsNext with
    | false => exact hnone
    | true =>
      refine ih (fun h => hterminal ?_) fun j hj => hreply j (List.mem_cons_of_mem i hj)
      unfold reachesTerminal at h ⊢
      simp [hnext, h]

/-- An error of a chain is its terminal's or an interceptor's. -/
theorem Next.run_error {Q : Error → Prop}
    (hterminal : reachesTerminal chain = true → ∀ e, terminal.result = some (.error e) → Q e)
    (hreply : ∀ i ∈ chain, ∀ result e, i.reply result = some (.error e) → Q e) {e : Error}
    (h : (Next.run terminal idle chain).result = some (.error e)) : Q e := by
  have hP := @Next.run_result _ terminal idle chain
    (fun result => ∀ e, result = some (.error e) → Q e) nofun hterminal
  refine hP (fun i hi result hresult e he => ?_) e h
  rcases hmade : i.reply result with - | - | body | r | e'
  all_goals rw [hmade] at he
  · nomatch he
  · exact hresult e he
  · rcases result with - | e' | response
    · nomatch he
    · exact hresult e he
    · nomatch he
  · nomatch he
  · cases he
    exact hreply i hi result e hmade

/-- A response of a chain is its terminal's or a foreign one, with another body perhaps. -/
theorem Next.run_ok {Q : Response → Prop}
    (hterminal : reachesTerminal chain = true → ∀ r, terminal.result = some (.ok r) → Q r)
    (hedited : ∀ r body, Q r → Q { r with body, wireOrigin := false })
    (hforeign : ∀ i ∈ chain, ∀ result r, i.reply result = some (.foreign r) → Q r.toResponse)
    {response : Response} (h : (Next.run terminal idle chain).result = some (.ok response)) :
    Q response := by
  have hP := @Next.run_result _ terminal idle chain
    (fun result => ∀ r, result = some (.ok r) → Q r) nofun hterminal
  refine hP (fun i hi result hresult r hr => ?_) response h
  rcases hmade : i.reply result with - | - | body | foreign | e
  all_goals rw [hmade] at hr
  · nomatch hr
  · exact hresult r hr
  · rcases result with - | e | inner
    · nomatch hr
    · nomatch hr
    · cases hr
      exact hedited inner body (hresult inner rfl)
  · cases hr
    exact hforeign i hi result foreign hmade
  · nomatch hr

end Chain

end Fusen.Invocation
