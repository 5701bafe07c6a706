import Fusen.Server.Arguments
import Fusen.Wire.Framing
import Fusen.Wire.MediaType

/-!
# Reading a request (`server/http.rs`)

`receive` is what becomes of a request behind the admission gate: the route is matched, the
head is checked, the body is read within the byte budget and the arguments are decoded.
The interceptors pass the context on, and the deadline is a `BodyEvent.dropped`.
-/

namespace Fusen.Server

open Lib Contract Wire Fusen.Runtime

/-- What reading a request uses of other crates. -/
structure ReadCrates where
  codec : PercentCodec
  parseMime : Text → Option Mime
  fromSlice : List UInt8 → Option Json

/-! ## Bodies -/

def unexpectedBody : Error :=
  .framework .invalidArgument "unexpected_body"
    "this HTTP route does not accept a request body".toList

def invalidJson : Error :=
  .framework .invalidArgument "invalid_json" "HTTP request body is invalid JSON".toList

def validateBodyAbsent : List BodyEvent → Awaited Unit
  | [] => some (.ok ())
  | .failed :: _ => some (.error BodyReadRole.request.streamFailed)
  | .dropped :: _ => none
  | .trailers :: events => validateBodyAbsent events
  | .data chunk :: events =>
    if chunk ≠ [] then some (.error unexpectedBody) else validateBodyAbsent events

/-! ## Requests -/

structure ReceivedRequest where
  method : Method
  pathAndQuery : Text
  headers : HeaderMap
  body : List BodyEvent

structure ReadLimits where
  maxRequestBody : Nat
  /-- The index of the budget for request bodies. -/
  requestBudget : Nat
  maxQueryPairs : Nat

section

variable (crates : ReadCrates) (limits : ReadLimits)

/-- The checks of `execute_matched`, up to the interceptors. -/
def MatchedRoute.acceptHead (m : MatchedRoute) (headers : HeaderMap) :
    Except Error (Option Nat) := do
  let contentLength ← parseContentLength headers
  validateContentType crates.parseMime headers m.route.operation.consumes m.hasBody
  if !m.hasBody && (contentLength.any (0 < ·) || headers.containsKey transferEncoding) then
    .error unexpectedBody
  else .ok contentLength

def MatchedRoute.arguments (m : MatchedRoute) (request : ReceivedRequest) (body : Option Json) :
    Except Error Arguments :=
  m.httpArguments crates.codec (uriQuery request.pathAndQuery) (applicationHeaders request.headers)
    body limits.maxQueryPairs

def MatchedRoute.decodeBody (m : MatchedRoute) (request : ReceivedRequest) (bytes : List UInt8) :
    Except Error Arguments :=
  match crates.fromSlice bytes with
  | none => .error invalidJson
  | some body => m.arguments crates limits request (some body)

def MatchedRoute.executeBody (m : MatchedRoute) (request : ReceivedRequest)
    (contentLength : Option Nat) : Prog (Awaited Arguments) :=
  if m.hasBody then
    readBodyWithRole request.body contentLength limits.maxRequestBody limits.requestBudget
      .request >>= fun
    | none => .pure none
    | some (.error e) => .pure (some (.error e))
    | some (.ok (bytes, permit)) =>
      abandon permit (some (m.decodeBody crates limits request bytes))
  else
    match validateBodyAbsent request.body with
    | none => .pure none
    | some (.error e) => .pure (some (.error e))
    | some (.ok ()) => .pure (some (m.arguments crates limits request none))

/-- The route and the arguments that the service is called with. -/
def RouteTable.receive (table : RouteTable) (request : ReceivedRequest) :
    Prog (Awaited (MatchedRoute × Arguments)) :=
  match table.matchHttp crates.codec request.method (uriPath request.pathAndQuery) with
  | .error e => .pure (some (.error e))
  | .ok m =>
    match m.acceptHead crates request.headers with
    | .error e => .pure (some (.error e))
    | .ok contentLength =>
      m.executeBody crates limits request contentLength >>= fun
      | none => .pure none
      | some (.error e) => .pure (some (.error e))
      | some (.ok arguments) => .pure (some (.ok (m, arguments)))

end

/-! ## What is accepted -/

theorem validateBodyAbsent_frames (frames : List Frame) :
    validateBodyAbsent (frames.map Frame.event) =
      if assemble frames = [] then some (.ok ()) else some (.error unexpectedBody) := by
  induction frames with
  | nil => rfl
  | cons frame frames ih =>
    cases frame with
    | none =>
      rw [assemble_cons_none]
      exact ih
    | some chunk =>
      rw [assemble_cons_some, List.map_cons, Frame.event, validateBodyAbsent]
      by_cases hchunk : chunk = []
      · rw [if_neg (by simpa using hchunk), ih, hchunk, List.nil_append]
      · rw [if_pos hchunk, if_neg]
        simp [hchunk]

theorem MatchedRoute.acceptHead_eq_ok_iff {crates : ReadCrates} {m : MatchedRoute}
    {headers : HeaderMap} {contentLength : Option Nat} :
    m.acceptHead crates headers = .ok contentLength ↔
      parseContentLength headers = .ok contentLength ∧
        validateContentType crates.parseMime headers m.route.operation.consumes m.hasBody = .ok () ∧
        (m.hasBody = false → contentLength.any (0 < ·) = false ∧
          headers.containsKey transferEncoding = false) := by
  unfold acceptHead
  simp only [Except.bind_eq_ok_iff]
  constructor
  · rintro ⟨length, hlength, ⟨⟩, htype, h⟩
    split at h
    · cases h
    · rename_i hbody
      cases h
      refine ⟨hlength, htype, fun hno => ?_⟩
      simpa [hno] using hbody
  · rintro ⟨hlength, htype, hbody⟩
    refine ⟨contentLength, hlength, (), htype, ?_⟩
    rw [if_neg]
    intro h
    obtain ⟨hno, hsome⟩ := Bool.and_eq_true_iff.mp h
    obtain ⟨hzero, hchunked⟩ := hbody (by simpa using hno)
    rw [hzero, hchunked] at hsome
    cases hsome

section Exec

variable {crates : ReadCrates} {readLimits : ReadLimits} {m : MatchedRoute}
  {request : ReceivedRequest} {frames : List Frame} {contentLength : Option Nat}
  {limits : Nat → Fin Usize.size} {L : Ledger} {held : List Nat} {out : Arguments}

/-- A body that was read is decoded, and the budget is given back. -/
theorem abandon_exec {n b : Nat} (hle : L.used b + n ≤ limits b) (held : List Nat)
    (r : Awaited Arguments) : ∃ L', L.Restored L' ∧
      (abandon L.permits.length r).exec limits (L.opened b n) (L.permits.length :: held) =
        some (r, L', held) := by
  obtain ⟨L', hL', hx⟩ := exec_drop_opened hle (Prog.pure r)
  exact ⟨L', hL', hx⟩

/-- **The end of `execute_body`**, read alone: the budget is as before, and arguments come
from the bytes of the frames, of which there may be as many as the limit allows. -/
theorem MatchedRoute.executeBody_outcome (hframes : request.body = frames.map Frame.event) :
    ∃ r L', L.Restored L' ∧
      (m.executeBody crates readLimits request contentLength).exec limits L held =
        some (some r, L', held) ∧
      ∀ out, r = .ok out →
        if m.hasBody then (assemble frames).length ≤ readLimits.maxRequestBody ∧
          m.decodeBody crates readLimits request (assemble frames) = .ok out
        else assemble frames = [] ∧ m.arguments crates readLimits request none = .ok out := by
  unfold executeBody
  by_cases hbody : m.hasBody
  · simp only [if_pos hbody]
    obtain ⟨r, hr, hspec⟩ := @readBodyWithRole_outcome limits readLimits.requestBudget L held
      contentLength readLimits.maxRequestBody .request frames
    rw [← hframes] at hr
    rw [Prog.exec_bind]
    generalize (readBodyWithRole request.body contentLength readLimits.maxRequestBody
      readLimits.requestBudget .request).exec limits L held = x at hr
    cases hr with
    | rejected e hL => exact ⟨.error e, _, hL, rfl, by simp⟩
    | accepted bytes n =>
      obtain ⟨hbytes, hmax, -, hused, -⟩ := hspec _ rfl
      obtain ⟨L', hL', hx⟩ := abandon_exec hused held
        (some (m.decodeBody crates readLimits request bytes))
      refine ⟨_, L', hL', hx, fun out hout => ?_⟩
      rw [← hbytes]
      exact ⟨hmax, hout⟩
  · simp only [if_neg hbody]
    rw [hframes, validateBodyAbsent_frames]
    by_cases hempty : assemble frames = []
    · rw [if_pos hempty]
      exact ⟨_, L, .refl L, rfl, fun out hout => ⟨hempty, hout⟩⟩
    · rw [if_neg hempty]
      exact ⟨_, L, .refl L, rfl, by simp⟩

theorem MatchedRoute.executeBody_ok (hframes : request.body = frames.map Frame.event)
    {L' : Ledger} {held' : List Nat}
    (h : (m.executeBody crates readLimits request contentLength).exec limits L held =
      some (some (.ok out), L', held')) :
    if m.hasBody then (assemble frames).length ≤ readLimits.maxRequestBody ∧
      m.decodeBody crates readLimits request (assemble frames) = .ok out
    else assemble frames = [] ∧ m.arguments crates readLimits request none = .ok out := by
  obtain ⟨r, L₁, -, hexec, hspec⟩ := executeBody_outcome hframes
  rw [hexec] at h
  cases h
  exact hspec out rfl

/-- A body that is short enough and finds room is decoded. -/
theorem MatchedRoute.executeBody_accepts (hbody : m.hasBody = true)
    (hframes : request.body = frames.map Frame.event)
    (hmax : (assemble frames).length ≤ readLimits.maxRequestBody)
    (hlength : ∀ l ∈ contentLength, l = (assemble frames).length)
    (hroom : L.used readLimits.requestBudget +
      reservation (contentLength.getD 0) (assemble frames).length ≤
        limits readLimits.requestBudget) : ∃ L', L.Restored L' ∧
      (m.executeBody crates readLimits request contentLength).exec limits L held =
        some (some (m.decodeBody crates readLimits request (assemble frames)), L', held) := by
  unfold executeBody
  simp only [if_pos hbody]
  rw [Prog.exec_bind, hframes, readBodyWithRole_accepts frames hmax hlength hroom]
  exact abandon_exec hroom held _

/-- Without a body the arguments come from the head alone. -/
theorem MatchedRoute.executeBody_absent (hbody : m.hasBody = false)
    (hframes : request.body = frames.map Frame.event) (hempty : assemble frames = []) :
    (m.executeBody crates readLimits request contentLength).exec limits L held =
      some (some (m.arguments crates readLimits request none), L, held) := by
  unfold executeBody
  simp only [hbody, Bool.false_eq_true, if_false]
  rw [hframes, validateBodyAbsent_frames, if_pos hempty]
  rfl

/-- Read alone, the request comes to this route with these arguments, and leaves the budget
as it was. -/
def RouteTable.Receives (table : RouteTable) (crates : ReadCrates) (readLimits : ReadLimits)
    (limits : Nat → Fin Usize.size) (L : Ledger) (held : List Nat) (request : ReceivedRequest)
    (m : MatchedRoute) (out : Arguments) : Prop :=
  ∃ L', L.Restored L' ∧ (table.receive crates readLimits request).exec limits L held =
    some (some (.ok (m, out)), L', held)

theorem RouteTable.receives_iff {table : RouteTable} :
    table.Receives crates readLimits limits L held request m out ↔
      table.matchHttp crates.codec request.method (uriPath request.pathAndQuery) = .ok m ∧
      ∃ contentLength, m.acceptHead crates request.headers = .ok contentLength ∧
        ∃ L', L.Restored L' ∧
          (m.executeBody crates readLimits request contentLength).exec limits L held =
            some (some (.ok out), L', held) := by
  unfold Receives receive
  cases hm : table.matchHttp crates.codec request.method (uriPath request.pathAndQuery) with
  | error e => simp [Prog.exec]
  | ok m' =>
    dsimp only
    cases hhead : m'.acceptHead crates request.headers with
    | error e =>
      simp only [Prog.exec, Option.some.injEq, Prod.mk.injEq, reduceCtorEq, false_and, and_false,
        exists_false, Except.ok.injEq, false_iff]
      rintro ⟨rfl, contentLength, hacc, -⟩
      rw [hhead] at hacc
      cases hacc
    | ok contentLength =>
      dsimp only
      rw [Prog.exec_bind]
      constructor
      · rintro ⟨L', hL', hx⟩
        obtain ⟨⟨r, L₁, held₁⟩, hx₁, hx⟩ := Option.bind_eq_some_iff.mp hx
        rcases r with _ | e | arguments
        · cases hx
        · cases hx
        · cases hx
          exact ⟨rfl, contentLength, hhead, _, hL', hx₁⟩
      · rintro ⟨heq, contentLength', hhead', L', hL', hx⟩
        cases heq
        rw [hhead, Except.ok.injEq] at hhead'
        subst hhead'
        rw [hx]
        exact ⟨L', hL', rfl⟩

end Exec

end Fusen.Server
