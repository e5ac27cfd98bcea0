import ReverseProxy.Codec.BodySource

/-!
# HTTP/3 message heads

The pure part of `H3Codec` (`codec/h3_codec.cpp`): between the header list that
the transport decodes or encodes and the protocol-independent heads.  Bodies need
no framing of their own; they are the DATA bytes of the stream up to its end.
-/

namespace ReverseProxy

open Text

/-- `ITransportStream::HeaderList`: names and values in wire order, pseudo-headers included. -/
abbrev HeaderList := List (Bytes × Bytes)

namespace H3Codec

/-! ## Reading -/

/-- A name that is skipped: an empty one or a pseudo-header without a meaning of its own. -/
def isPseudo (name : Bytes) : Bool :=
  name = [] || name.head? = some COLON

/-- The loop body of `request_head_from_headers`. -/
def takeRequestField (head : HttpRequestHead) (field : Bytes × Bytes) : HttpRequestHead :=
  if field.1 = ascii ":method" then { head with method := field.2 }
  else if field.1 = ascii ":path" then { head with path := field.2 }
  else if field.1 = ascii ":scheme" then { head with scheme := field.2 }
  else if field.1 = ascii ":authority" then
    { head with authority := field.2, headers := head.headers.set (ascii "host") field.2 }
  else if isPseudo field.1 then head
  else { head with headers := head.headers.add field.1 field.2 }

/-- `request_head_from_headers`. -/
def requestHeadFromHeaders (raw : HeaderList) : HttpRequestHead :=
  let head := raw.foldl takeRequestField { version := ascii "HTTP/3" }
  { head with contentLength := head.headers.declaredLength }

/-- The conversion of a `long` to an `int`. -/
def toInt (value : ℤ) : ℤ :=
  Int.bmod value (2 ^ 32)

/-- The loop body of `response_head_from_headers`. -/
def takeResponseField (head : HttpResponseHead) (field : Bytes × Bytes) : HttpResponseHead :=
  if field.1 = ascii ":status" then
    { head with statusCode := toInt ((strtol 10 field.2).getD 0) }
  else if isPseudo field.1 then head
  else { head with headers := head.headers.add field.1 field.2 }

/-- `response_head_from_headers`. -/
def responseHeadFromHeaders (raw : HeaderList) : HttpResponseHead :=
  let head := raw.foldl takeResponseField { version := ascii "HTTP/3" }
  { head with contentLength := head.headers.declaredLength }

/--
`async_parse_request` once the transport has decoded the headers: every list is
accepted, and the body is the DATA of the stream up to its end.
-/
def asyncParseRequest (raw : HeaderList) : ParsedRequest :=
  { head := requestHeadFromHeaders raw, body := some .streamEof, keepAlive := false }

/-- `async_parse_response` once the transport has decoded the headers. -/
def asyncParseResponse (raw : HeaderList) : ParsedResponse :=
  { head := responseHeadFromHeaders raw, body := some .streamEof, keepAlive := false }

/-! ## Writing -/

/-- `is_hop_by_hop`: fields that describe a single HTTP/1.1 connection. -/
def isHopByHop (name : Bytes) : Bool :=
  lower name ∈ [ascii "connection", ascii "keep-alive", ascii "proxy-connection",
    ascii "transfer-encoding", ascii "upgrade"]

/-- The fields of a head that are carried over HTTP/3. -/
def carriedFields (headers : HeaderMap) : HeaderList :=
  headers.entries.filter fun entry => !isHopByHop entry.1

/-- The header list that `async_write_request` sends. -/
def requestHeaderList (head : HttpRequestHead) : HeaderList :=
  [(ascii ":method", if head.method = [] then ascii "GET" else head.method),
    (ascii ":scheme", if head.scheme = [] then ascii "http" else head.scheme),
    (ascii ":authority",
      if head.authority = [] then (head.headers.get (ascii "host")).getD []
      else head.authority),
    (ascii ":path", if head.path = [] then ascii "/" else head.path)] ++
  carriedFields head.headers

/-- The header list that `async_write_response` sends. -/
def responseHeaderList (head : HttpResponseHead) : HeaderList :=
  (ascii ":status", toDecimal head.statusCode) :: carriedFields head.headers

/-- The field names as `QuicTransportStream::async_send_headers` encodes them. -/
def lowerNames (fields : HeaderList) : HeaderList :=
  fields.map fun field => (lower field.1, field.2)

/-! ## The loops in closed form -/

/-- A name that both loops add to the header map. -/
theorem isPseudo_eq_false_iff (name : Bytes) :
    isPseudo name = false ↔ name ≠ [] ∧ name.head? ≠ some COLON := by
  simp [isPseudo]

theorem ne_of_isPseudo_eq_false {name pseudo : Bytes} (regular : isPseudo name = false)
    (starts : isPseudo pseudo = true) : name ≠ pseudo := by
  rintro rfl
  simp [regular] at starts

theorem takeRequestField_of_regular (head : HttpRequestHead) {field : Bytes × Bytes}
    (regular : isPseudo field.1 = false) :
    takeRequestField head field = { head with headers := head.headers.add field.1 field.2 } := by
  have notMethod : field.1 ≠ ascii ":method" := ne_of_isPseudo_eq_false regular (by decide)
  have notPath : field.1 ≠ ascii ":path" := ne_of_isPseudo_eq_false regular (by decide)
  have notScheme : field.1 ≠ ascii ":scheme" := ne_of_isPseudo_eq_false regular (by decide)
  have notAuthority : field.1 ≠ ascii ":authority" :=
    ne_of_isPseudo_eq_false regular (by decide)
  simp [takeRequestField, notMethod, notPath, notScheme, notAuthority, regular]

theorem takeResponseField_of_regular (head : HttpResponseHead) {field : Bytes × Bytes}
    (regular : isPseudo field.1 = false) :
    takeResponseField head field =
      { head with headers := head.headers.add field.1 field.2 } := by
  have notStatus : field.1 ≠ ascii ":status" := ne_of_isPseudo_eq_false regular (by decide)
  simp [takeResponseField, notStatus, regular]

theorem regular_of_mem_add {headers : HeaderMap} {field entry : Bytes × Bytes}
    (regular : ∀ entry ∈ headers.entries, isPseudo entry.1 = false)
    (notPseudo : ¬isPseudo field.1 = true)
    (entryMem : entry ∈ (headers.add field.1 field.2).entries) : isPseudo entry.1 = false := by
  simp only [HeaderMap.entries_add, List.mem_append, List.mem_singleton] at entryMem
  rcases entryMem with old | rfl
  · exact regular entry old
  · simpa using notPseudo

/-- Every name that reading a request puts in the header map is a regular one. -/
theorem regular_of_mem_requestHeadFromHeaders {raw : HeaderList} {entry : Bytes × Bytes}
    (entryMem : entry ∈ (requestHeadFromHeaders raw).headers.entries) :
    isPseudo entry.1 = false := by
  refine List.foldlRecOn raw takeRequestField (motive := fun head =>
    ∀ entry ∈ head.headers.entries, isPseudo entry.1 = false) (by simp) ?_ entry entryMem
  intro head regular field _ entry entryMem
  unfold takeRequestField at entryMem
  split_ifs at entryMem with _ _ _ _ pseudo
  · exact regular entry entryMem
  · exact regular entry entryMem
  · exact regular entry entryMem
  · simp only [HeaderMap.entries_set, List.mem_append, List.mem_filter,
      List.mem_singleton] at entryMem
    rcases entryMem with ⟨old, -⟩ | rfl
    · exact regular entry old
    · exact (by decide : isPseudo (ascii "host") = false)
  · exact regular entry entryMem
  · exact regular_of_mem_add regular pseudo entryMem

/-- Every name that reading a response puts in the header map is a regular one. -/
theorem regular_of_mem_responseHeadFromHeaders {raw : HeaderList} {entry : Bytes × Bytes}
    (entryMem : entry ∈ (responseHeadFromHeaders raw).headers.entries) :
    isPseudo entry.1 = false := by
  refine List.foldlRecOn raw takeResponseField (motive := fun head =>
    ∀ entry ∈ head.headers.entries, isPseudo entry.1 = false) (by simp) ?_ entry entryMem
  intro head regular field _ entry entryMem
  unfold takeResponseField at entryMem
  split_ifs at entryMem with _ pseudo
  · exact regular entry entryMem
  · exact regular entry entryMem
  · exact regular_of_mem_add regular pseudo entryMem

/-- Reading fields adds the regular ones to the header map, in order. -/
theorem foldl_takeRequestField_of_colonless (head : HttpRequestHead) {fields : HeaderList}
    (colonless : ∀ field ∈ fields, field.1.head? ≠ some COLON) :
    fields.foldl takeRequestField head =
      { head with
        headers := ⟨head.headers.entries ++ fields.filter fun field => field.1 ≠ []⟩ } := by
  induction fields generalizing head with
  | nil => simp
  | cons field fields ih =>
    rw [List.foldl_cons, ih _ fun later laterMem => colonless later (by simp [laterMem])]
    by_cases empty : field.1 = []
    · have skipped : takeRequestField head field = head := by
        rcases field with ⟨name, value⟩
        cases empty
        rfl
      simp [skipped, empty]
    · have regular : isPseudo field.1 = false :=
        (isPseudo_eq_false_iff _).mpr ⟨empty, colonless field (by simp)⟩
      simp [takeRequestField_of_regular head regular, empty]

theorem foldl_takeResponseField_of_colonless (head : HttpResponseHead) {fields : HeaderList}
    (colonless : ∀ field ∈ fields, field.1.head? ≠ some COLON) :
    fields.foldl takeResponseField head =
      { head with
        headers := ⟨head.headers.entries ++ fields.filter fun field => field.1 ≠ []⟩ } := by
  induction fields generalizing head with
  | nil => simp
  | cons field fields ih =>
    rw [List.foldl_cons, ih _ fun later laterMem => colonless later (by simp [laterMem])]
    by_cases empty : field.1 = []
    · have skipped : takeResponseField head field = head := by
        rcases field with ⟨name, value⟩
        cases empty
        rfl
      simp [skipped, empty]
    · have regular : isPseudo field.1 = false :=
        (isPseudo_eq_false_iff _).mpr ⟨empty, colonless field (by simp)⟩
      simp [takeResponseField_of_regular head regular, empty]

/-- The value of the last field with the given name. -/
def lastValue (name : Bytes) (raw : HeaderList) : Option Bytes :=
  ((raw.filter fun field => field.1 = name).getLast?).map Prod.snd

theorem lastValue_cons (name : Bytes) (field : Bytes × Bytes) (raw : HeaderList) :
    lastValue name (field :: raw) =
      (lastValue name raw).or (if field.1 = name then some field.2 else none) := by
  unfold lastValue
  by_cases same : field.1 = name
  · rw [List.filter_cons_of_pos (by simpa using same), List.getLast?_cons]
    cases (raw.filter fun field => field.1 = name).getLast? <;> simp [same]
  · rw [List.filter_cons_of_neg (by simpa using same)]
    simp [same]

end H3Codec

end ReverseProxy
