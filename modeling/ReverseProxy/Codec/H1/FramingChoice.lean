import ReverseProxy.Codec.H1.Fields
import ReverseProxy.Codec.H1.RoundTrip

/-!
# The choice of a body source

Which body source `H1Codec` chooses for a header block, compared with the framing
that RFC 9112 §6.3 derives from the same fields.  The codec never takes the body of
a request for a chunked one, looks for `chunked` in the first `Transfer-Encoding`
field of a response only, and reads every `Content-Length` with `strtoul`.
-/

namespace ReverseProxy

open Text

namespace H1Codec

/--
The framing that a body source realizes.  A stream source for the rest of a length
goes on behind the bytes that were read together with the header block.
-/
def chosenFraming (bodyPrefix : Bytes) : Option BodySource → Rfc9112.Framing
  | none => .length 0
  | some (.buffer data _) => .length data.length
  | some (.stream remaining) => .length (bodyPrefix.length + remaining)
  | some .streamEof => .untilClose
  | some (.chunked _) => .chunked

theorem chosenFraming_lengthBody (bytes : ℕ) (bodyPrefix : Bytes) :
    chosenFraming bodyPrefix (lengthBody bytes bodyPrefix) = .length bytes := by
  unfold lengthBody
  by_cases fresh : bodyPrefix = []
  · subst fresh
    by_cases positive : 0 < bytes
    · simp [positive, chosenFraming]
    · obtain rfl : bytes = 0 := by omega
      simp [chosenFraming]
  · simp only [ne_eq, fresh, not_false_eq_true, if_true]
    split_ifs with whole
    · simp only [chosenFraming, List.length_take, Rfc9112.Framing.length.injEq]
      omega
    · simp only [chosenFraming, Rfc9112.Framing.length.injEq]
      omega

/-! ## Lengths -/

/-- There is no `Content-Length`, or all elements of the fields agree on a length that fits. -/
def LengthAgreed (values : List Bytes) : Prop :=
  values = [] ∨ ∃ length < 2 ^ 64, Rfc9112.contentLength? values = some length

/-- The framing that a `Content-Length` prescribes, or its absence. -/
def lengthFraming (absent : Rfc9112.Framing) (values : List Bytes) : Rfc9112.Framing :=
  if values ≠ [] then
    match Rfc9112.contentLength? values with
    | some bytes => .length bytes
    | none => .invalid
  else absent

/-- The framing of a source that the codec chooses from the length it takes. -/
def takenFraming (absent : Rfc9112.Framing) : Option ℕ → Rfc9112.Framing
  | some bytes => .length bytes
  | none => absent

theorem takenFraming_ne_invalid {absent : Rfc9112.Framing} (known : absent ≠ .invalid)
    (length : Option ℕ) : takenFraming absent length ≠ .invalid := by
  cases length with
  | none => exact known
  | some bytes => simp [takenFraming]

/--
The length that the codec takes frames the body as prescribed exactly when it is
agreed upon.  `read` relates the fields of the block to the entries of the head.
-/
theorem takenFraming_eq_iff {headers : HeaderMap} {values : List Bytes}
    (colonless : ∀ entry ∈ headers.entries, COLON ∉ entry.1)
    (read : Rfc9112.contentLength (wireFields headers) = values) {absent : Rfc9112.Framing}
    (known : absent ≠ .invalid) :
    takenFraming absent headers.declaredLength = lengthFraming absent values ↔
      LengthAgreed values := by
  subst read
  by_cases missing : Rfc9112.contentLength (wireFields headers) = []
  · rw [declaredLength_of_absent colonless missing, lengthFraming, missing]
    simp [takenFraming, LengthAgreed]
  · rw [lengthFraming, if_pos missing, LengthAgreed, or_iff_right missing]
    cases agreed : Rfc9112.contentLength? (Rfc9112.contentLength (wireFields headers)) with
    | none =>
      simp only [reduceCtorEq, and_false, exists_false, iff_false]
      exact takenFraming_ne_invalid known _
    | some length =>
      rw [declaredLength_of_agreed colonless agreed]
      have bound : ulongMax = 2 ^ 64 - 1 := rfl
      simp only [takenFraming, Rfc9112.Framing.length.injEq, Option.some.injEq,
        exists_eq_right']
      omega

/-! ## Requests -/

/-- The requests whose body source is the prescribed one: a length, and no transfer coding. -/
def RequestAgrees (fields : List Rfc9112.Field) : Prop :=
  Rfc9112.transferEncoding fields = [] ∧ LengthAgreed (Rfc9112.contentLength fields)

theorem chosenFraming_requestBody (head : HttpRequestHead) (bodyPrefix : Bytes) :
    chosenFraming bodyPrefix (requestBody head bodyPrefix) =
      takenFraming (.length 0) head.contentLength := by
  unfold requestBody
  cases head.contentLength with
  | none => rfl
  | some bytes => exact chosenFraming_lengthBody bytes bodyPrefix

theorem takenFraming_ne_chunked {absent : Rfc9112.Framing} (known : absent ≠ .chunked)
    (length : Option ℕ) : takenFraming absent length ≠ .chunked := by
  cases length with
  | none => exact known
  | some bytes => simp [takenFraming]

theorem requestFraming_eq_iff {headers : HeaderMap} {fields : List Rfc9112.Field}
    (colonless : ∀ entry ∈ headers.entries, COLON ∉ entry.1)
    (read : Rfc9112.contentLength (wireFields headers) = Rfc9112.contentLength fields) :
    takenFraming (.length 0) headers.declaredLength = Rfc9112.requestFraming fields ↔
      RequestAgrees fields := by
  unfold Rfc9112.requestFraming RequestAgrees
  by_cases coded : Rfc9112.transferEncoding fields = []
  · rw [if_neg (not_not.mpr coded)]
    simp only [coded, true_and]
    exact takenFraming_eq_iff colonless read (by simp)
  · rw [if_pos coded]
    simp only [coded, false_and, iff_false]
    split_ifs
    · exact takenFraming_ne_chunked (by simp) _
    · exact takenFraming_ne_invalid (by simp) _

/-! ## Responses -/

/--
The responses whose body source is the prescribed one: those without a body, those
of an agreed length or up to the close and without a transfer coding, and those with
transfer codings where the first field mentions `chunked` exactly when the last
coding is `chunked`, and no length competes with the close.
-/
def ResponseAgrees (head : HttpResponseHead) (fields : List Rfc9112.Field) : Prop :=
  Rfc9112.bodiless (ascii "GET") head.statusCode.toNat = true ∨
    Rfc9112.transferEncoding fields = [] ∧ LengthAgreed (Rfc9112.contentLength fields) ∨
    Rfc9112.transferEncoding fields ≠ [] ∧
      (Mentions (ascii "transfer-encoding") (ascii "chunked") head.headers ↔
        Rfc9112.finalCodingIsChunked (Rfc9112.transferEncoding fields) = true) ∧
      (Rfc9112.finalCodingIsChunked (Rfc9112.transferEncoding fields) = true ∨
        Rfc9112.contentLength fields = [])

theorem bodiless_eq_statusHasNoBody {status : ℤ} (positive : 0 < status) :
    Rfc9112.bodiless (ascii "GET") status.toNat = statusHasNoBody status := by
  have head : ascii "GET" ≠ ascii "HEAD" := by decide
  have connect : ascii "GET" ≠ ascii "CONNECT" := by decide
  rw [Bool.eq_iff_iff]
  simp only [Rfc9112.bodiless, statusHasNoBody, head, connect, decide_false, Bool.false_or,
    Bool.false_and, Bool.or_false, Bool.or_eq_true, decide_eq_true_eq]
  omega

theorem saysChunked_iff (headers : HeaderMap) :
    saysChunked headers = true ↔
      Mentions (ascii "transfer-encoding") (ascii "chunked") headers := by
  rw [mentions_iff (by decide), saysChunked]
  cases headers.get (ascii "transfer-encoding") with
  | none => simp
  | some value => simp [contains_iff]

theorem chosenFraming_responseBody (head : HttpResponseHead) (bodyPrefix : Bytes) :
    chosenFraming bodyPrefix (responseBody head bodyPrefix).1 =
      if statusHasNoBody head.statusCode then .length 0
      else if saysChunked head.headers then .chunked
      else takenFraming .untilClose head.contentLength := by
  unfold responseBody
  split_ifs
  · rfl
  · rfl
  · cases head.contentLength with
    | none => rfl
    | some bytes => exact chosenFraming_lengthBody bytes bodyPrefix

theorem closeDelimited_of_untilClose {head : HttpResponseHead} {bodyPrefix : Bytes}
    (chosen : chosenFraming bodyPrefix (responseBody head bodyPrefix).1 = .untilClose) :
    (responseBody head bodyPrefix).2 = true := by
  unfold responseBody at chosen ⊢
  split_ifs at chosen ⊢
  · simp [chosenFraming] at chosen
  · simp [chosenFraming] at chosen
  · cases taken : head.contentLength with
    | none => rfl
    | some bytes =>
      simp only [taken, chosenFraming_lengthBody] at chosen
      simp at chosen

theorem declaredLength_eq_none_iff {headers : HeaderMap}
    (colonless : ∀ entry ∈ headers.entries, COLON ∉ entry.1) :
    headers.declaredLength = none ↔ Rfc9112.contentLength (wireFields headers) = [] := by
  refine ⟨?_, declaredLength_of_absent colonless⟩
  have lowered : lower (ascii "content-length") = ascii "content-length" := by decide
  rw [HeaderMap.declaredLength, Option.map_eq_none_iff, get_eq_head?, lowered,
    List.head?_eq_none_iff, List.map_eq_nil_iff, Rfc9112.contentLength,
    valuesOf_wireFields colonless, List.map_eq_nil_iff]
  exact id

theorem takenFraming_untilClose_iff (length : Option ℕ) :
    takenFraming .untilClose length = .untilClose ↔ length = none := by
  cases length with
  | none => simp [takenFraming]
  | some bytes => simp [takenFraming]

section ResponseFraming

variable {head : HttpResponseHead} {fields : List Rfc9112.Field}

theorem responseFraming_eq_iff (colonless : ∀ entry ∈ head.headers.entries, COLON ∉ entry.1)
    (positive : 0 < head.statusCode) (length : head.contentLength = head.headers.declaredLength)
    (read : Rfc9112.contentLength (wireFields head.headers) = Rfc9112.contentLength fields)
    (uncoded : Rfc9112.transferEncoding fields = [] →
      ¬Mentions (ascii "transfer-encoding") (ascii "chunked") head.headers) (bodyPrefix : Bytes) :
    chosenFraming bodyPrefix (responseBody head bodyPrefix).1 =
        Rfc9112.responseFraming (ascii "GET") head.statusCode.toNat fields ↔
      ResponseAgrees head fields := by
  rw [chosenFraming_responseBody, Rfc9112.responseFraming, ResponseAgrees,
    bodiless_eq_statusHasNoBody positive, length]
  by_cases bodiless : statusHasNoBody head.statusCode = true
  · simp [bodiless]
  by_cases coded : Rfc9112.transferEncoding fields = []
  · have silent : saysChunked head.headers = false := by
      rw [← Bool.not_eq_true, saysChunked_iff]
      exact uncoded coded
    simp only [bodiless, silent, coded, ne_eq, not_true_eq_false, if_false, Bool.false_eq_true,
      false_or, true_and, false_and, or_false]
    exact takenFraming_eq_iff colonless read (by simp)
  · simp only [bodiless, coded, ne_eq, not_false_eq_true, if_false, if_true, Bool.false_eq_true,
      false_or, false_and, true_and]
    rw [← saysChunked_iff]
    -- Both sides decide between `chunked` and something else.
    by_cases mentioned : saysChunked head.headers = true
    · by_cases final : Rfc9112.finalCodingIsChunked (Rfc9112.transferEncoding fields) = true
      · simp [mentioned, final]
      · simp [mentioned, final]
    · by_cases final : Rfc9112.finalCodingIsChunked (Rfc9112.transferEncoding fields) = true
      · simp only [mentioned, final, if_true, Bool.false_eq_true, if_false, iff_true, false_and,
          iff_false]
        exact takenFraming_ne_chunked (by simp) _
      · simp only [mentioned, final, Bool.false_eq_true, if_false, false_or, true_and]
        rw [takenFraming_untilClose_iff, declaredLength_eq_none_iff colonless, read]

end ResponseFraming

/-! ## Both directions -/

theorem finishRequest_eq_ok {raw bodyPrefix : Bytes} {parsed : ParsedRequest}
    (finished : finishRequest raw bodyPrefix = .ok parsed) :
    parseHeaderBlock raw = .ok parsed.head ∧ parsed.body = requestBody parsed.head bodyPrefix := by
  unfold finishRequest at finished
  cases parse : parseHeaderBlock raw with
  | error message => simp [parse] at finished
  | ok head =>
    rw [parse] at finished
    obtain rfl := Except.ok.inj finished
    exact ⟨rfl, rfl⟩

theorem finishResponse_eq_ok {raw bodyPrefix : Bytes} {parsed : ParsedResponse}
    (finished : finishResponse raw bodyPrefix = .ok parsed) :
    parseResponseBlock raw = .ok parsed.head ∧
      parsed.body = (responseBody parsed.head bodyPrefix).1 ∧
      parsed.keepAlive = (!(responseBody parsed.head bodyPrefix).2 &&
        computeKeepAlive parsed.head.headers parsed.head.version) := by
  unfold finishResponse at finished
  cases parse : parseResponseBlock raw with
  | error message => simp [parse] at finished
  | ok head =>
    rw [parse] at finished
    obtain rfl := Except.ok.inj finished
    exact ⟨rfl, rfl, rfl⟩

/--
For every header block, the body source of an accepted request and that of an
accepted response are the prescribed ones exactly when the fields agree with what the
codec looks at.  An accepted request of undetermined framing counts against it, and
so does a response that ends with the connection and leaves it alive.
-/
theorem chosenFraming_eq_iff (raw bodyPrefix : Bytes) :
    (∀ parsed, finishRequest raw bodyPrefix = .ok parsed →
      (chosenFraming bodyPrefix parsed.body = Rfc9112.requestFraming (receivedFields raw) ↔
        RequestAgrees (receivedFields raw))) ∧
    ∀ parsed, finishResponse raw bodyPrefix = .ok parsed →
      (chosenFraming bodyPrefix parsed.body =
            Rfc9112.responseFraming (ascii "GET") parsed.head.statusCode.toNat
              (receivedFields raw) ∧
          (Rfc9112.responseFraming (ascii "GET") parsed.head.statusCode.toNat
              (receivedFields raw) = .untilClose → parsed.keepAlive = false) ↔
        ResponseAgrees parsed.head (receivedFields raw)) := by
  refine ⟨?_, ?_⟩
  · intro parsed finished
    rcases finishRequest_eq_ok finished with ⟨parse, body⟩
    have colonless : ∀ entry ∈ parsed.head.headers.entries, COLON ∉ entry.1 := fun entry entryMem =>
      ((writable_of_parseHeaderBlock parse).1.entries entry entryMem).colonless
    rw [body, chosenFraming_requestBody, contentLength_of_parseHeaderBlock parse]
    apply requestFraming_eq_iff colonless
    rw [Rfc9112.contentLength, Rfc9112.contentLength, valuesOf_wireFields colonless,
      valuesOf_of_parseHeaderBlock parse]
  · intro parsed finished
    rcases finishResponse_eq_ok finished with ⟨parse, body, keepAlive⟩
    have writable := writable_of_parseResponseBlock parse
    have colonless : ∀ entry ∈ parsed.head.headers.entries, COLON ∉ entry.1 := fun entry entryMem =>
      (writable.entries entry entryMem).colonless
    rw [← responseFraming_eq_iff colonless writable.positive
      (contentLength_of_parseResponseBlock parse) ?_ ?_ bodyPrefix, body]
    · rw [and_iff_left_iff_imp]
      intro chosen untilClose
      rw [untilClose] at chosen
      rw [keepAlive, closeDelimited_of_untilClose chosen]
      rfl
    · rw [Rfc9112.contentLength, Rfc9112.contentLength, valuesOf_wireFields colonless,
        valuesOf_of_parseResponseBlock parse]
    · intro uncoded
      rw [Rfc9112.transferEncoding, valuesOf_of_parseResponseBlock parse,
        List.map_eq_nil_iff] at uncoded
      rintro ⟨value, valueMem, -⟩
      rw [Rfc9112.valuesOf, uncoded] at valueMem
      simp at valueMem

/-- A chunked request. -/
def chunkedRequestBlock : Bytes :=
  ascii "POST / HTTP/1.1\r\nTransfer-Encoding: chunked\r\n\r\n"

/-- A chunked response. -/
def chunkedResponseBlock : Bytes :=
  ascii "HTTP/1.1 200 OK\r\nTransfer-Encoding: Chunked\r\n\r\n"

/-- A chunked request is accepted without a body, and `Chunked` is read up to the close. -/
theorem chunkedBlocks_not_framed :
    (∃ parsed, finishRequest chunkedRequestBlock [] = .ok parsed ∧ parsed.body = none ∧
      chosenFraming [] parsed.body ≠
        Rfc9112.requestFraming (receivedFields chunkedRequestBlock)) ∧
    ∃ parsed, finishResponse chunkedResponseBlock [] = .ok parsed ∧
      parsed.body = some .streamEof ∧
      chosenFraming [] parsed.body ≠
        Rfc9112.responseFraming (ascii "GET") parsed.head.statusCode.toNat
          (receivedFields chunkedResponseBlock) := by
  refine ⟨⟨_, rfl, ?_, ?_⟩, _, rfl, ?_, ?_⟩
  · decide
  · decide
  · decide
  · decide

end H1Codec

end ReverseProxy
