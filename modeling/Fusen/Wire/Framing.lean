import Fusen.Runtime.Limits
import Fusen.Wire.BodyBudget
import Fusen.Wire.Controls
import Mathlib.Data.List.ReduceOption

/-!
# Bodies and how they are framed

What `read_body` makes of a body that arrives in full, read alone.  With a
`Content-Length` the bytes are reserved at once; without one the reservation grows by
chunks, and by `acceptsByLength_iff` a body then needs room for its length rounded up.
-/

namespace Fusen.Wire

open Lib Fusen.Runtime

def invalidContentLength : Error :=
  .framework .invalidArgument "invalid_content_length"
    "Content-Length must be a non-negative integer".toList

def parseContentLength (headers : HeaderMap) : Except Error (Option Nat) := do
  match ← oneHeader headers contentLength with
  | none => .ok none
  | some value =>
    match value.toStr.bind (parseUnsigned (2 ^ 64)) with
    | none => .error invalidContentLength
    | some length => .ok (some length)

/-- Who reads a body: the server that of a request, the client that of a response. -/
inductive BodyReader where
  | server (config : ServerRequestConfig)
  | client (config : ClientAdmissionConfig) (requestId : Text)

namespace BodyReader

def validate : BodyReader → Validation
  | .server config => validateRequest config
  | .client config _ => validateAdmission config

def maxBody : BodyReader → Nat
  | .server config => config.maxRequestBodyBytes
  | .client config _ => config.maxResponseBodyBytes

/-- The limit of the byte budget. -/
def inflight : BodyReader → Nat
  | .server config => config.maxInflightRequestBodyBytes
  | .client config _ => config.maxInflightResponseBodyBytes

def role : BodyReader → BodyReadRole
  | .server _ => .request
  | .client _ requestId => .response requestId

theorem maxBody_le_inflight {reader : BodyReader} (h : reader.validate = .ok ()) :
    reader.maxBody ≤ reader.inflight := by
  cases reader with
  | server config => exact (fits_of_validateRequest h).1
  | client config requestId => exact (fits_of_validateAdmission h).2

end BodyReader

/-! ## Bodies that arrive -/

/-- A frame with data or one without. -/
abbrev Frame := Option (List UInt8)

def Frame.event : Frame → BodyEvent
  | some chunk => .data chunk
  | none => .trailers

/-- The body of some frames. -/
def assemble (frames : List Frame) : List UInt8 := frames.reduceOption.flatten

/-- The chunks that hold `n` bytes, in bytes. -/
def chunked (n : Nat) : Nat := (n + (CHUNK_RESERVATION - 1)) / CHUNK_RESERVATION * CHUNK_RESERVATION

theorem le_chunked (n : Nat) : n ≤ chunked n := by
  unfold chunked CHUNK_RESERVATION
  omega

theorem chunked_mono {m n : Nat} (h : m ≤ n) : chunked m ≤ chunked n := by
  unfold chunked CHUNK_RESERVATION
  omega

theorem chunked_le_of_dvd {m n : Nat} (hdvd : CHUNK_RESERVATION ∣ n) (h : m ≤ n) :
    chunked m ≤ n := by
  unfold chunked
  unfold CHUNK_RESERVATION at hdvd ⊢
  omega

/-- What was reserved and what is needed beyond it, both in whole chunks. -/
theorem chunked_grow {m n : Nat} (h : chunked m < n) :
    chunked m + chunked (n - chunked m) = chunked n := by
  unfold chunked CHUNK_RESERVATION at *
  omega

unseal Lib.Usize.size in
theorem chunk_dvd_size : CHUNK_RESERVATION ∣ Usize.size := by decide

/-- What is reserved once `m` bytes are read, `declared` of them from the start. -/
def reservation (declared m : Nat) : Nat := declared + chunked (m - declared)

theorem le_reservation (declared m : Nat) : m ≤ reservation declared m := by
  have := le_chunked (m - declared)
  unfold reservation
  omega

theorem reservation_mono {declared m n : Nat} (h : m ≤ n) :
    reservation declared m ≤ reservation declared n :=
  Nat.add_le_add_left (chunked_mono (Nat.sub_le_sub_right h declared)) declared

/-- Bytes that fit what is reserved change nothing. -/
theorem reservation_eq {declared m n : Nat} (hmn : m ≤ n) (h : n ≤ reservation declared m) :
    reservation declared n = reservation declared m := by
  have hle : chunked (n - declared) ≤ chunked (m - declared) := by
    refine chunked_le_of_dvd (Nat.dvd_mul_left _ _) ?_
    unfold reservation at h
    omega
  exact Nat.le_antisymm (Nat.add_le_add_left hle declared) (reservation_mono hmn)

theorem reservation_grow {declared m n : Nat} (h : reservation declared m < n) :
    reservation declared m + chunked (n - reservation declared m) = reservation declared n := by
  unfold reservation at h ⊢
  rw [← Nat.sub_sub, Nat.add_assoc, chunked_grow (by omega)]

/-- A length that is known to be that of the body reserves no more than the chunks it fills. -/
theorem reservation_le_chunked {contentLength : Option Nat} {n : Nat}
    (h : ∀ l ∈ contentLength, l = n) : reservation (contentLength.getD 0) n ≤ chunked n := by
  cases contentLength with
  | none => exact Nat.le_of_eq (Nat.zero_add _)
  | some l =>
    obtain rfl := h l rfl
    have hzero : chunked 0 = 0 := by decide
    simp only [reservation, Option.getD_some, Nat.sub_self, hzero, Nat.add_zero]
    exact le_chunked l

theorem wrappingMul_chunk {m : Nat} (h : chunked m < Usize.size) :
    Usize.wrappingMul ((m + (CHUNK_RESERVATION - 1)) / CHUNK_RESERVATION) CHUNK_RESERVATION =
      chunked m :=
  Nat.mod_eq_of_lt h

/-- A growth that wraps is a number of chunks still. -/
theorem chunk_dvd_wrappingMul (a : Nat) :
    CHUNK_RESERVATION ∣ Usize.wrappingMul a CHUNK_RESERVATION :=
  (Nat.dvd_mod_iff chunk_dvd_size).mpr (Nat.dvd_mul_left _ _)

theorem assemble_cons_some (chunk : List UInt8) (frames : List Frame) :
    assemble (some chunk :: frames) = chunk ++ assemble frames := by
  unfold assemble
  rw [List.reduceOption_cons_of_some, List.flatten_cons]

theorem assemble_cons_none (frames : List Frame) : assemble (none :: frames) = assemble frames := by
  unfold assemble
  rw [List.reduceOption_cons_of_none]

unseal Lib.Usize.size in
theorem lt_of_room {limits : Nat → Fin Usize.size} {L : Ledger} {b n : Nat}
    (h : L.used b + n ≤ limits b) : n < 2 ^ 64 :=
  Nat.lt_of_le_of_lt ((Nat.le_add_left _ _).trans h) (limits b).isLt

/-! ## Reading alone -/

section

variable {limits : Nat → Fin Usize.size} {b n : Nat} {L : Ledger} {held : List Nat}
  {contentLength : Option Nat} {maxBody : Nat} {role : BodyReadRole}

/-- The end of a read: no result and what was before, or `bytes` and a permit of `n`. -/
inductive ReadOutcome (L : Ledger) (b : Nat) (held : List Nat) :
    Option (Awaited (List UInt8 × Nat) × Ledger × List Nat) → Option (List UInt8 × Nat) → Prop
  | rejected (e : Error) {L' : Ledger} (h : L.Restored L') :
    ReadOutcome L b held (some (some (.error e), L', held)) none
  | accepted (bytes : List UInt8) (n : Nat) :
    ReadOutcome L b held (some (some (.ok (bytes, L.permits.length)), L.opened b n,
      L.permits.length :: held)) (some (bytes, n))

/-- A read has one end. -/
theorem ReadOutcome.unique {x : Option (Awaited (List UInt8 × Nat) × Ledger × List Nat)}
    {r r' : Option (List UInt8 × Nat)} (h : ReadOutcome L b held x r)
    (h' : ReadOutcome L b held x r') : r = r' := by
  cases h with
  | rejected e hL => cases h'; rfl
  | accepted bytes n =>
    generalize hx : some (some (Except.ok (bytes, L.permits.length)), L.opened b n,
      L.permits.length :: held) = x at h'
    cases h' with
    | rejected e hL => cases hx
    | accepted bytes' n' =>
      obtain ⟨hbytes, hledger⟩ : bytes = bytes' ∧ L.opened b n = L.opened b n' := by
        simpa using hx
      have hused := congrArg (fun L' => Ledger.used L' b) hledger
      simp only [Ledger.used_opened] at hused
      obtain rfl : n = n' := by omega
      rw [hbytes]

theorem abandon_rejected (hle : L.used b + n ≤ limits b) (e : Error) :
    ReadOutcome L b held ((abandon L.permits.length (some (.error e))).exec limits (L.opened b n)
      (L.permits.length :: held)) none := by
  obtain ⟨L', hL', hx⟩ :=
    exec_drop_opened hle (Prog.pure (some (.error e) : Awaited (List UInt8 × Nat)))
  unfold abandon
  rw [hx]
  exact .rejected e hL'

/-- What is accepted is the frames' bytes, of a length that may be, and the permit grew
by whole chunks. -/
theorem readFrames_outcome (frames : List Frame) (bytes : List UInt8)
    (hle : L.used b + n ≤ limits b) (hbytes : bytes.length ≤ maxBody) :
    ∃ r, ReadOutcome L b held ((readFrames contentLength maxBody role L.permits.length
        (frames.map Frame.event) bytes n).exec limits (L.opened b n) (L.permits.length :: held)) r ∧
      ∀ a ∈ r, a.1 = bytes ++ assemble frames ∧ a.1.length ≤ maxBody ∧
        (∀ l ∈ contentLength, l = a.1.length) ∧ L.used b + a.2 ≤ limits b ∧
        (CHUNK_RESERVATION ∣ n → CHUNK_RESERVATION ∣ a.2) := by
  induction frames generalizing bytes n with
  | nil =>
    rw [List.map_nil, readFrames]
    split
    · exact ⟨none, abandon_rejected hle _, nofun⟩
    · rename_i hlength
      refine ⟨some (bytes, n), .accepted bytes n, ?_⟩
      rintro _ ⟨⟩
      refine ⟨(List.append_nil bytes).symm, hbytes, fun l hl => ?_, hle, id⟩
      by_contra hne
      refine hlength ?_
      rw [Option.mem_def.mp hl]
      exact decide_eq_true hne
  | cons frame frames ih =>
    cases frame with
    | none =>
      rw [assemble_cons_none]
      exact ih bytes hle hbytes
    | some chunk =>
      have hassemble : bytes ++ assemble (some chunk :: frames) =
          bytes ++ chunk ++ assemble frames := by
        rw [assemble_cons_some, List.append_assoc]
      rw [hassemble, List.map_cons, Frame.event, readFrames]
      split
      · exact ⟨none, abandon_rejected hle _, nofun⟩
      · rename_i next hnext
        obtain ⟨-, rfl⟩ := Usize.checkedAdd_eq_some_iff.mp hnext
        have hlen : (bytes ++ chunk).length = bytes.length + chunk.length := List.length_append
        split
        · exact ⟨none, abandon_rejected hle _, nofun⟩
        · rename_i hfits
          split
          · dsimp only
            rcases exec_grow_opened limits L b n (L.permits.length :: held) List.mem_cons_self
              _ _ with hx | ⟨hle', hx⟩
            · rw [hx]
              exact ⟨none, abandon_rejected hle _, nofun⟩
            · rw [hx]
              obtain ⟨r, hr, hspec⟩ := ih (bytes ++ chunk) hle' (by omega)
              refine ⟨r, hr, fun a ha => ?_⟩
              obtain ⟨hbody, hmax, hlength, hused, hdvd⟩ := hspec a ha
              exact ⟨hbody, hmax, hlength, hused,
                fun h => hdvd (Nat.dvd_add h (chunk_dvd_wrappingMul _))⟩
          · exact ih (bytes ++ chunk) hle (by omega)

/-- A body that has room in the budget is accepted. -/
theorem readFrames_accepts (frames : List Frame) (bytes : List UInt8) {body : List UInt8}
    (hbody : bytes ++ assemble frames = body) (hmax : body.length ≤ maxBody)
    (hlength : ∀ l ∈ contentLength, l = body.length)
    (hroom : L.used b + reservation (contentLength.getD 0) body.length ≤ limits b) :
    (readFrames contentLength maxBody role L.permits.length (frames.map Frame.event) bytes
        (reservation (contentLength.getD 0) bytes.length)).exec limits
        (L.opened b (reservation (contentLength.getD 0) bytes.length)) (L.permits.length :: held) =
      some (some (.ok (body, L.permits.length)),
        L.opened b (reservation (contentLength.getD 0) body.length), L.permits.length :: held) := by
  have hlt := (limits b).isLt
  have hle := le_reservation (contentLength.getD 0) body.length
  induction frames generalizing bytes with
  | nil =>
    obtain rfl : bytes = body := (List.append_nil bytes).symm.trans hbody
    rw [List.map_nil, readFrames, if_neg]
    · rfl
    · cases contentLength with
      | none => exact nofun
      | some l => exact fun h => of_decide_eq_true h (hlength l rfl)
  | cons frame frames ih =>
    cases frame with
    | none => exact ih bytes (by rwa [assemble_cons_none] at hbody)
    | some chunk =>
      rw [assemble_cons_some, ← List.append_assoc] at hbody
      have hlen : (bytes ++ chunk).length = bytes.length + chunk.length := List.length_append
      have hnext : (bytes ++ chunk).length ≤ body.length := by
        rw [← hbody]
        exact (List.sublist_append_left _ _).length_le
      have hreserved : reservation (contentLength.getD 0) (bytes ++ chunk).length ≤
          reservation (contentLength.getD 0) body.length := reservation_mono hnext
      have hchecked : Usize.checkedAdd bytes.length chunk.length =
          some (bytes ++ chunk).length :=
        Usize.checkedAdd_eq_some_iff.mpr ⟨by omega, hlen⟩
      rw [List.map_cons, Frame.event, readFrames]
      simp only [hchecked]
      rw [if_neg (Nat.not_lt.mpr (Nat.le_trans hnext hmax))]
      by_cases hgrow : (bytes ++ chunk).length > reservation (contentLength.getD 0) bytes.length
      · have heq := reservation_grow hgrow
        rw [if_pos hgrow, wrappingMul_chunk (by omega), exec_grow_of_le List.mem_cons_self
          (by omega), heq]
        exact ih (bytes ++ chunk) hbody
      · have heq : reservation (contentLength.getD 0) (bytes.length + chunk.length) =
            reservation (contentLength.getD 0) bytes.length :=
          reservation_eq (Nat.le_add_right _ _) (by omega)
        rw [if_neg hgrow, ← heq, ← hlen]
        exact ih (bytes ++ chunk) hbody

/-- Read alone, a body is rejected or accepted as a whole. -/
theorem readBodyWithRole_outcome (frames : List Frame) :
    ∃ r, ReadOutcome L b held ((readBodyWithRole (frames.map Frame.event) contentLength maxBody b
        role).exec limits L held) r ∧
      ∀ a ∈ r, a.1 = assemble frames ∧ a.1.length ≤ maxBody ∧
        (∀ l ∈ contentLength, l = a.1.length) ∧ L.used b + a.2 ≤ limits b ∧
        (contentLength = none → CHUNK_RESERVATION ∣ a.2) := by
  unfold readBodyWithRole
  split
  · exact ⟨none, .rejected _ (.refl L), nofun⟩
  · dsimp only
    rcases exec_tryReserve limits L held _ with hx | ⟨hle, hx⟩
    · rw [hx]
      exact ⟨none, .rejected _ (.refl L), nofun⟩
    · rw [hx]
      obtain ⟨r, hr, hspec⟩ := @readFrames_outcome limits b _ L held contentLength maxBody role
        frames [] hle (Nat.zero_le _)
      refine ⟨r, hr, fun a ha => ?_⟩
      obtain ⟨hbody, hmax, hlength, hused, hdvd⟩ := hspec a ha
      refine ⟨hbody, hmax, hlength, hused, fun hnone => hdvd ?_⟩
      rw [hnone]
      exact Nat.dvd_zero _

theorem readBodyWithRole_accepts (frames : List Frame) (hmax : (assemble frames).length ≤ maxBody)
    (hlength : ∀ l ∈ contentLength, l = (assemble frames).length)
    (hroom : L.used b + reservation (contentLength.getD 0) (assemble frames).length ≤ limits b) :
    (readBodyWithRole (frames.map Frame.event) contentLength maxBody b role).exec limits L held =
      some (some (.ok (assemble frames, L.permits.length)),
        L.opened b (reservation (contentLength.getD 0) (assemble frames).length),
        L.permits.length :: held) := by
  have hzero : reservation (contentLength.getD 0) 0 = contentLength.getD 0 := by
    unfold reservation
    rw [Nat.zero_sub]
    rfl
  have hle : reservation (contentLength.getD 0) 0 ≤
      reservation (contentLength.getD 0) (assemble frames).length :=
    reservation_mono (Nat.zero_le _)
  unfold readBodyWithRole
  rw [if_neg]
  · dsimp only
    rw [exec_tryReserve_of_le (by omega)]
    have := @readFrames_accepts limits b L held contentLength maxBody role frames [] _ rfl hmax
      hlength hroom
    rwa [List.length_nil, hzero] at this
  · cases contentLength with
    | none => exact nofun
    | some l =>
      obtain rfl := hlength l rfl
      exact fun h => absurd (of_decide_eq_true h) (Nat.not_lt.mpr hmax)

end

/-! ## What the length alone decides -/

variable {limits : Nat → Fin Usize.size} {b : Nat} {L : Ledger}

/-- The read accepts a body just when its length is allowed and matches, whatever the
frames, and has a permit that covers it; else it leaves the budget as it was. -/
def AcceptsByLength (limits : Nat → Fin Usize.size) (b : Nat) (L : Ledger) (held : List Nat)
    (reader : BodyReader) (contentLength : Option Nat) (frames : List Frame) : Prop :=
  let body := assemble frames
  let read := (readBodyWithRole (frames.map Frame.event) contentLength reader.maxBody b
    reader.role).exec limits L held
  if body.length ≤ reader.maxBody ∧ ∀ l ∈ contentLength, l = body.length then
    ∃ n, body.length ≤ n ∧ ReadOutcome L b held read (some (body, n))
  else ReadOutcome L b held read none

/-- **A body is accepted by its length alone just when there is room for whole chunks**,
or it came with a `Content-Length`. -/
theorem acceptsByLength_iff (reader : BodyReader) (haccepted : reader.validate = .ok ())
    (hlimit : limits b = reader.inflight) (hunused : L.used b = 0) (held : List Nat)
    (contentLength : Option Nat) (frames : List Frame) :
    AcceptsByLength limits b L held reader contentLength frames ↔
      (contentLength = none → (assemble frames).length ≤ reader.maxBody →
        chunked (assemble frames).length ≤ reader.inflight) := by
  have hpromise := BodyReader.maxBody_le_inflight haccepted
  obtain ⟨r, hr, hspec⟩ := @readBodyWithRole_outcome limits b L held contentLength reader.maxBody
    reader.role frames
  unfold AcceptsByLength
  dsimp only
  by_cases hlength : (assemble frames).length ≤ reader.maxBody ∧
      ∀ l ∈ contentLength, l = (assemble frames).length
  · rw [if_pos hlength]
    constructor
    · rintro ⟨n, hcovers, hread⟩ rfl -
      obtain rfl := hr.unique hread
      obtain ⟨-, -, -, hused, hdvd⟩ := hspec _ rfl
      exact (chunked_le_of_dvd (hdvd rfl) hcovers).trans (by omega)
    · intro hroom
      refine ⟨_, le_reservation (contentLength.getD 0) _, ?_⟩
      rw [readBodyWithRole_accepts frames hlength.1 hlength.2]
      · exact .accepted _ _
      · cases contentLength with
        | none =>
          have := hroom rfl hlength.1
          unfold reservation
          simp only [Option.getD_none, Nat.sub_zero]
          omega
        | some l =>
          obtain rfl := hlength.2 l rfl
          unfold reservation
          simp only [Option.getD_some, Nat.sub_self]
          have hzero : chunked 0 = 0 := by decide
          omega
  · rw [if_neg hlength]
    refine ⟨fun _ hnone hmax => absurd ⟨hmax, by rw [hnone]; exact nofun⟩ hlength, fun _ => ?_⟩
    cases r with
    | none => exact hr
    | some a =>
      obtain ⟨hbody, hmax, hmatch, -⟩ := hspec a rfl
      rw [hbody] at hmax hmatch
      exact absurd ⟨hmax, hmatch⟩ hlength

/-- A server with the same limit for a body and for all bodies in flight. -/
def tightServer (bytes : Nat) : BodyReader :=
  .server ⟨1, 1, bytes, bytes, bytes, bytes, 0, 0⟩

unseal Lib.Usize.size in
def tightBudget (bytes : Fin (2 ^ 64)) : Nat → Fin Usize.size := fun _ => bytes

/-- A page suffices for a byte in a frame of its own. -/
theorem acceptsByLength_page : (tightServer 4096).validate = .ok () ∧
    AcceptsByLength (tightBudget 4096) 0 .empty [] (tightServer 4096) none [some [7], none] := by
  refine ⟨rfl, ?_⟩
  exact (acceptsByLength_iff (tightServer 4096) rfl rfl rfl [] none [some [7], none]).mpr
    fun _ _ => by decide

unseal Lib.Usize.size in
theorem oneByte_exhausts :
    (((readBodyWithRole [.data [7]] none 1024 0 .request).exec (tightBudget 1024) .empty []).map
      fun x => x.1.map fun r => r.isOk) = some (some false) := by
  decide +kernel

/-- With limits of 1024 bytes a body of one byte is too much without a `Content-Length`. -/
theorem oneByte_rejected : (tightServer 1024).validate = .ok () ∧
    ¬ AcceptsByLength (tightBudget 1024) 0 .empty [] (tightServer 1024) none [some [7]] := by
  refine ⟨rfl, fun h => ?_⟩
  obtain ⟨n, -, hread⟩ : ∃ n, 1 ≤ n ∧ ReadOutcome .empty 0 []
      ((readBodyWithRole [.data [7]] none 1024 0 .request).exec (tightBudget 1024) .empty [])
      (some ([7], n)) := h
  have hend := oneByte_exhausts
  generalize (readBodyWithRole [.data [7]] none 1024 0 .request).exec (tightBudget 1024) .empty []
    = x at hread hend
  cases hread with
  | accepted bytes n => cases hend

end Fusen.Wire
