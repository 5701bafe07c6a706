import Fusen.Error

/-!
# Header names of the wire format

The names both sides treat as their own: `runtimeOwned` is the list the client
refuses from callers, `applicationHeaders` is the filter of the server.
-/

namespace Fusen.Wire

def accept : HeaderName := ⟨"accept".toList, by decide⟩
def connection : HeaderName := ⟨"connection".toList, by decide⟩
def contentLength : HeaderName := ⟨"content-length".toList, by decide⟩
def contentType : HeaderName := ⟨"content-type".toList, by decide⟩
def cookie : HeaderName := ⟨"cookie".toList, by decide⟩
def host : HeaderName := ⟨"host".toList, by decide⟩
def keepAlive : HeaderName := ⟨"keep-alive".toList, by decide⟩
def te : HeaderName := ⟨"te".toList, by decide⟩
def trailer : HeaderName := ⟨"trailer".toList, by decide⟩
def transferEncoding : HeaderName := ⟨"transfer-encoding".toList, by decide⟩
def upgrade : HeaderName := ⟨"upgrade".toList, by decide⟩

def requestId : HeaderName := ⟨"x-request-id".toList, by decide⟩
def timeoutMs : HeaderName := ⟨"x-fusen-timeout-ms".toList, by decide⟩
def attempt : HeaderName := ⟨"x-fusen-attempt".toList, by decide⟩
def serviceGroup : HeaderName := ⟨"x-fusen-service-group".toList, by decide⟩
def serviceVersion : HeaderName := ⟨"x-fusen-service-version".toList, by decide⟩

/-- `is_runtime_owned_header`, also the list of `reject_binding_owned_headers`. -/
def runtimeOwned : List HeaderName :=
  [contentType, accept, requestId, timeoutMs, attempt, serviceGroup, serviceVersion, contentLength,
    host, connection, te, trailer, transferEncoding, upgrade]

def isRuntimeOwnedHeader (name : HeaderName) : Bool := runtimeOwned.contains name

/-! ## The server's filter -/

def strippedHeaders : List HeaderName :=
  [accept, connection, contentType, contentLength, host, te, trailer, transferEncoding, upgrade,
    requestId, timeoutMs, attempt, serviceGroup, serviceVersion]

/-- `application_headers` of `server/http.rs`. -/
def applicationHeaders (headers : HeaderMap) : HeaderMap :=
  (strippedHeaders.foldl HeaderMap.remove headers).remove keepAlive

/-- The names the server leaves in place. -/
def isApplicationHeader (name : HeaderName) : Bool :=
  !runtimeOwned.contains name && name ≠ keepAlive

theorem entries_foldl_remove (names : List HeaderName) (headers : HeaderMap) :
    (names.foldl HeaderMap.remove headers).entries =
      headers.entries.filter fun e => !names.contains e.1 := by
  induction names generalizing headers with
  | nil => simp
  | cons name names ih =>
    rw [List.foldl_cons, ih]
    show (headers.entries.filter _).filter _ = _
    rw [List.filter_filter]
    apply List.filter_congr
    rintro ⟨n, v⟩ -
    by_cases h : n = name <;> simp [h]

theorem mem_strippedHeaders_iff (name : HeaderName) :
    name ∈ strippedHeaders ↔ name ∈ runtimeOwned := by
  simp only [strippedHeaders, runtimeOwned, List.mem_cons, List.not_mem_nil, or_false]
  grind

theorem entries_applicationHeaders (headers : HeaderMap) :
    (applicationHeaders headers).entries =
      headers.entries.filter fun e => isApplicationHeader e.1 := by
  show ((strippedHeaders.foldl HeaderMap.remove headers).entries.filter _) = _
  rw [entries_foldl_remove, List.filter_filter]
  apply List.filter_congr
  rintro ⟨n, v⟩ -
  have hcontains : strippedHeaders.contains n = runtimeOwned.contains n := by
    rw [Bool.eq_iff_iff, List.contains_iff_mem, List.contains_iff_mem]
    exact mem_strippedHeaders_iff n
  rw [hcontains, Bool.and_comm]
  rfl

theorem isApplicationHeader_iff (name : HeaderName) :
    isApplicationHeader name = true ↔ name ∉ runtimeOwned ∧ name ≠ keepAlive := by
  simp [isApplicationHeader]

end Fusen.Wire
