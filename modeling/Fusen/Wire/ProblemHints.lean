import Fusen.Wire.ProblemRoundTrip

/-!
# Retry hints across the wire

The decoder makes the hint of a received error from the status and the `Retry-After`
header.  `hintKept_iff`: a local error keeps its hint when the status it is sent with is
not transient, and otherwise loses the hint `never`.
-/

namespace Fusen.Wire

open Lib Resilience

/-- What a retry hint is owed: `never` stays, and a delay does not get shorter. -/
def HintKeptAs (e received : Error) : Prop :=
  (e.retryHint = .never →
    received.retryHint = .never ∧ (classifyError received).isRetryable = false) ∧
  ∀ d, e.retryHint = .after d →
    received.retryHint = .never ∨ ∃ d', received.retryHint = .after d' ∧ d ≤ d'

/-- **The hint of an error is kept across the wire.** -/
def HintKept (crates : Crates) (now : Nat) (e : Error) (id : Text) (instance_ : Option Text)
    (controls : Bool) : Prop :=
  ∀ r, encodeProblem crates e id instance_ controls = some r →
    HintKeptAs e (decodeProblem crates now r.status id r.body.bytes r.headers controls)

/-- The longest delay that a `Retry-After` header can say. -/
def longestRetryAfter : Nat := (2 ^ 64 - 1) * 10 ^ 9

/-- The errors that keep their hint. -/
def KeepsHint (crates : Crates) (e : Error) (id : Text) (instance_ : Option Text)
    (controls : Bool) : Prop :=
  if e.kind = .application then
    Unreadable crates e id instance_ controls →
      e.status.isClientError = true ∨ isTransientStatus e.status = false
  else
    isTransientStatus (sentStatus e) = true →
      match e.retryHint with
      | .never => False
      | .retryable => True
      | .after d => d ≤ longestRetryAfter

theorem le_retryAfterSeconds_iff (d : Nat) :
    d ≤ retryAfterSeconds d * 10 ^ 9 ↔ d ≤ longestRetryAfter := by
  unfold retryAfterSeconds longestRetryAfter
  by_cases h : d % 10 ^ 9 = 0
  · rw [if_neg (not_not.mpr h)]
    omega
  · rw [if_pos h]
    omega

/-- The delay of a response is read from its one header. -/
theorem parseRetryAfter_sent {crates : Crates} {now : Nat} {e : Error} {headers : HeaderMap}
    (h : SentHeaders e headers) {delay : Nat} (hdelay : localRetryDelay e = some delay) :
    parseRetryAfter crates now headers = some (retryAfterSeconds delay * 10 ^ 9) := by
  obtain ⟨v, hv, hstr⟩ := h.delay delay hdelay
  have hlt : retryAfterSeconds delay < 2 ^ 64 := by
    unfold retryAfterSeconds
    omega
  unfold parseRetryAfter
  rw [hv]
  simp only [hstr, Option.bind_some, parseUnsigned_decimal hlt]

/-- Without a transient status the hint is `never` and the error is not retried. -/
theorem hint_of_not_transient {crates : Crates} {now : Nat} {received : Error}
    {kind : ErrorKind} {status : StatusCode} {headers : HeaderMap}
    (hstatus : isTransientStatus status = false)
    (hhint : received.retryHint = normalizedRetryHint crates now kind status headers)
    (horigin : received.origin = .remote) :
    received.retryHint = .never ∧ (classifyError received).isRetryable = false := by
  have hnever : received.retryHint = .never := by
    rw [hhint, normalizedRetryHint, if_pos (Or.inr hstatus)]
  refine ⟨hnever, ?_⟩
  by_cases hkind : received.kind = .application
  · exact isRetryable_application hkind
  · by_contra h
    rw [Bool.not_eq_false, isRetryable_remote_iff (kind_eq_framework hkind) horigin, hnever] at h
    exact absurd h.2.2 (by decide)

/-- With a transient status a framework error has a hint that allows a retry. -/
theorem hint_of_transient {crates : Crates} {now : Nat} {status : StatusCode} {headers : HeaderMap}
    (hstatus : isTransientStatus status = true) :
    normalizedRetryHint crates now .framework status headers =
      match parseRetryAfter crates now headers with
      | some d => .after d
      | none => .retryable := by
  unfold normalizedRetryHint
  exact if_neg (by simp [hstatus])

theorem hint_ne_never {crates : Crates} {now : Nat} {status : StatusCode} {headers : HeaderMap}
    (hstatus : isTransientStatus status = true) :
    normalizedRetryHint crates now .framework status headers ≠ .never := by
  rw [hint_of_transient hstatus]
  split <;> nofun

section

variable {crates : Crates} {now : Nat} {e : Error} {id : Text} {instance_ : Option Text}
  {controls : Bool} {headers : HeaderMap}

/-- The hint of the status error of an application error is kept unless the status is a
transient server status. -/
theorem hintKeptAs_statusError (he : e.Sound) (hkind : e.kind = .application) :
    HintKeptAs e (statusError crates now e.status id headers) ↔
      e.status.isClientError = true ∨ isTransientStatus e.status = false := by
  have hnever := he.hint hkind
  have hstatusKind : (statusError crates now e.status id headers).kind =
      if e.status.isClientError = true then .application else .framework := rfl
  by_cases hclient : e.status.isClientError = true
  · rw [if_pos hclient] at hstatusKind
    have hhint : (statusError crates now e.status id headers).retryHint = .never := by
      show (if (if e.status.isClientError = true then ErrorKind.application else .framework) =
        .application then RetryHint.never else _) = _
      rw [if_pos hclient, if_pos rfl]
    refine iff_of_true ⟨fun _ => ⟨hhint, isRetryable_application hstatusKind⟩, ?_⟩ (Or.inl hclient)
    exact fun _ _ => Or.inl hhint
  · have hhint : (statusError crates now e.status id headers).retryHint =
        normalizedRetryHint crates now .framework e.status headers := by
      show (if (if e.status.isClientError = true then ErrorKind.application else .framework) =
        .application then RetryHint.never else normalizedRetryHint crates now
          (if e.status.isClientError = true then .application else .framework) e.status headers) = _
      rw [if_neg hclient, if_neg (by decide)]
    cases htransient : isTransientStatus e.status with
    | false =>
      have hkept := hint_of_not_transient htransient hhint rfl
      exact iff_of_true ⟨fun _ => hkept, fun _ _ => Or.inl hkept.1⟩ (Or.inr rfl)
    | true =>
      refine iff_of_false (fun h => ?_) (by simpa using hclient)
      have hlost := (h.1 hnever).1
      rw [hhint] at hlost
      exact hint_ne_never htransient hlost

/-- The hint of a framework error, as it is received. -/
theorem hintKeptAs_received (hlocal : e.origin = .local_) (hkind : e.kind = .framework)
    (hsent : SentHeaders e headers) {detail : Option Text} {received : Error}
    (h : Received crates now e headers detail received) :
    HintKeptAs e received ↔
      (isTransientStatus (sentStatus e) = true →
        match e.retryHint with
        | .never => False
        | .retryable => True
        | .after d => d ≤ longestRetryAfter) := by
  have hhint := h.hint
  rw [hkind] at hhint
  cases htransient : isTransientStatus (sentStatus e) with
  | false =>
    have hkept := hint_of_not_transient htransient hhint h.origin
    exact iff_of_true ⟨fun _ => hkept, fun _ _ => Or.inl hkept.1⟩ nofun
  | true =>
    rw [imp_iff_right (rfl : true = true)]
    unfold HintKeptAs
    cases hretry : e.retryHint with
    | never =>
      refine iff_of_false (fun hkept => ?_) not_false
      have hlost := (hkept.1 rfl).1
      rw [hhint] at hlost
      exact hint_ne_never htransient hlost
    | retryable => exact iff_of_true ⟨nofun, nofun⟩ trivial
    | after d =>
      have hdelay : localRetryDelay e = some d := by
        unfold localRetryDelay
        rw [if_pos ⟨hkind, hlocal⟩, hretry]
        rfl
      have hafter : received.retryHint = .after (retryAfterSeconds d * 10 ^ 9) := by
        rw [hhint, hint_of_transient htransient, parseRetryAfter_sent hsent hdelay]
      rw [hafter]
      constructor
      · rintro ⟨-, hkept⟩
        rcases hkept d rfl with hnever | ⟨d', hd', hle⟩
        · cases hnever
        · cases hd'
          exact (le_retryAfterSeconds_iff d).mp hle
      · intro hle
        refine ⟨nofun, ?_⟩
        rintro d' ⟨⟩
        exact Or.inr ⟨_, rfl, (le_retryAfterSeconds_iff d).mpr hle⟩

theorem hintKeptAs_application (hkind : e.kind = .application) {detail : Option Text}
    {received : Error} (h : Received crates now e headers detail received) :
    HintKeptAs e received := by
  have hreceived : received.kind = .application := h.kind.trans hkind
  have hnever : received.retryHint = .never := by
    rw [h.hint, normalizedRetryHint, if_pos (Or.inl hkind)]
  exact ⟨fun _ => ⟨hnever, isRetryable_application hreceived⟩, fun _ _ => Or.inl hnever⟩

theorem hintKeptAs_decodeProblem (hcrates : crates.Documented) (he : e.Sound)
    (hlocal : e.origin = .local_) (hid : requestIdIsValid id = true)
    (hsent : SentHeaders e headers) :
    HintKeptAs e (decodeProblem crates now (sentStatus e) id
        (sentProblem crates e id instance_ controls).bytes headers controls) ↔
      KeepsHint crates e id instance_ controls := by
  unfold KeepsHint
  rcases decodeProblem_encoded now instance_ controls headers hcrates he hid with ⟨hunreadable, heq⟩ | ⟨hreadable, hreceived⟩
  · have hkind := hunreadable.1
    have hstatus : sentStatus e = e.status := if_pos hkind
    rw [if_pos hkind, heq, hstatus, hintKeptAs_statusError he hkind]
    exact ⟨fun h _ => h, fun h => h hunreadable⟩
  · by_cases hkind : e.kind = .application
    · rw [if_pos hkind]
      exact iff_of_true (hintKeptAs_application hkind hreceived) fun h => absurd h hreadable
    · rw [if_neg hkind]
      exact hintKeptAs_received hlocal (kind_eq_framework hkind) hsent hreceived

theorem keepsHint_of_hintKept (hcrates : crates.Documented) (he : e.Sound)
    (hlocal : e.origin = .local_) (hid : requestIdIsValid id = true)
    (h : HintKept crates now e id instance_ controls) :
    KeepsHint crates e id instance_ controls := by
  obtain ⟨headers, hencode, hsent⟩ := encodeProblem_sent e instance_ controls hcrates hid
  exact (hintKeptAs_decodeProblem hcrates he hlocal hid hsent).mp (h _ hencode)

theorem hintKept_of_keepsHint (hcrates : crates.Documented) (he : e.Sound)
    (hlocal : e.origin = .local_) (hid : requestIdIsValid id = true)
    (h : KeepsHint crates e id instance_ controls) :
    HintKept crates now e id instance_ controls := by
  obtain ⟨headers, hencode, hsent⟩ := encodeProblem_sent e instance_ controls hcrates hid
  intro r hr
  rw [hencode] at hr
  cases hr
  exact (hintKeptAs_decodeProblem hcrates he hlocal hid hsent).mpr h

/-- **Which local errors keep their retry hint**: application errors whose details can be
read, and framework errors with a category that is not sent with a transient status, or
with a delay that the header can say. -/
theorem hintKept_iff (hcrates : crates.Documented) (he : e.Sound) (hlocal : e.origin = .local_)
    (hid : requestIdIsValid id = true) :
    HintKept crates now e id instance_ controls ↔ KeepsHint crates e id instance_ controls :=
  ⟨keepsHint_of_hintKept hcrates he hlocal hid, hintKept_of_keepsHint hcrates he hlocal hid⟩

end

/-! ## Terminal errors of the server -/

def notReady : Error := .framework .unavailable "not_ready" "server is not ready".toList

theorem notReady_sound : notReady.Sound := ⟨nofun, nofun, fun _ hd => nomatch hd⟩

def conflict : Error := .framework .conflict "already_exists" "already exists".toList

theorem conflict_keeps : HintKept jsonCrates 0 conflict "request-1".toList none true := by
  have hsound : conflict.Sound := ⟨nofun, nofun, fun _ hd => nomatch hd⟩
  refine (hintKept_iff jsonCrates_documented hsound rfl (by decide)).mpr ?_
  unfold KeepsHint
  rw [if_neg (by decide)]
  intro h
  exact absurd h (by decide)

/-- The hint `never` of a terminal error is lost. -/
theorem notReady_upgraded : notReady.retryHint = .never ∧
    ¬ HintKept jsonCrates 0 notReady "request-1".toList none true := by
  refine ⟨rfl, fun h => ?_⟩
  have hkeeps := keepsHint_of_hintKept jsonCrates_documented notReady_sound rfl (by decide) h
  unfold KeepsHint at hkeeps
  rw [if_neg (by decide)] at hkeeps
  exact hkeeps (by decide)

end Fusen.Wire
