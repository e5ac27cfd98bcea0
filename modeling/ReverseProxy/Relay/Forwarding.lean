import ReverseProxy.Codec.H1.Delimiting
import ReverseProxy.Codec.H3.Translation
import ReverseProxy.Relay.Dispatch

/-!
# Requests on an HTTP/1.1 backend connection

What a backend receives when a request is forwarded to it over TCP: the head that
`H1Codec` writes, followed by the pumped body.  The parser, the choice of the body
source and the writer each decide about framing on their own; this file settles
for which requests the three agree, so that the backend finds exactly one request
message in the bytes it receives.
-/

namespace ReverseProxy

open Text H1Codec H3Codec

namespace RelaySession

/-- The bytes of a forwarded request are one request message, with nothing left over. -/
def IsOneRequest (head : HttpRequestHead) (body : Bytes) : Prop :=
  ∃ content, Rfc9112.RequestMessage (requestBytes head ++ body) content

/-- Exactly one body of the given framing. -/
def FitsBody (body : Bytes) : Rfc9112.Framing → Prop
  | .length bytes => body.length = bytes
  | .chunked => ∃ content, Rfc9112.ChunkedBody body content
  | _ => False

/--
The framing that the written fields announce fits what the codec forwards from an
HTTP/1.1 client, where `after` follows the header block on the wire and the header
reads have returned `overread` bytes of it.
-/
def FitsFraming (headers : HeaderMap) (overread : ℕ) (after : Bytes) : Prop :=
  match Rfc9112.requestFraming (wireFields headers) with
  | .length bytes => bytes < 2 ^ 64 ∧ bytes ≤ after.length ∧ (overread = 0 ∨ bytes ≤ overread)
  | .chunked =>
    ∃ content, Rfc9112.ChunkedBody
      (forwardedPart overread (headers.declaredLength.getD 0) after) content
  | _ => False

/-- The wire bytes of an HTTP/1.1 client carry a request that can be forwarded. -/
def Forwardable (stream : InStream) : Prop :=
  ∃ block after head, stream.bytes.dropInfix? crlfcrlf = some (block, after) ∧
    parseHeaderBlock (block ++ crlfcrlf) = .ok head ∧
    FitsFraming head.headers (overread stream (block ++ crlfcrlf).length) after

/-- No written part of a decoded header list contains a line end, and no written name a colon. -/
structure Unbroken (raw : HeaderList) : Prop where
  method : ∀ value ∈ lastValue (ascii ":method") raw, ¬crlf <:+: value
  path : ∀ value ∈ lastValue (ascii ":path") raw, ¬crlf <:+: value
  authority : ∀ value ∈ lastValue (ascii ":authority") raw, ¬crlf <:+: value
  fields : ∀ field ∈ writtenFields raw,
    COLON ∉ field.1 ∧ ¬crlf <:+: field.1 ∧ ¬crlf <:+: field.2

/-- The DATA is as long as the fields of the decoded list announce, or chunked as they announce. -/
def DataFits (raw : HeaderList) (data : Bytes) : Prop :=
  FitsBody data (Rfc9112.requestFraming
    ((regularFields raw).map fun field => (field.1, trim field.2)))

/-- The start line for a decoded list. -/
def startLine (raw : HeaderList) : Bytes :=
  (lastValue (ascii ":method") raw).getD [] ++ ascii " " ++
    (lastValue (ascii ":path") raw).getD [] ++ ascii " " ++ ascii "HTTP/1.1"

/--
A decoded list that is broken is cut at its line ends.  The lines up to the first empty one
announce the length of what follows: the rest of the lines, and the DATA.
-/
def CutFits (raw : HeaderList) (data : Bytes) : Prop :=
  ∃ start lines stray,
    receivedLines (startLine raw :: (sentFields raw).map HeaderMap.wireLine) =
        (start :: lines, stray) ∧
      FitsBody (stray ++ data) (Rfc9112.requestFraming (Rfc9112.fields lines))

/-! ## Heads -/

theorem filter_set_of_ne (headers : HeaderMap) {key name : Bytes} (value : Bytes)
    (other : lower key ≠ name) :
    ((headers.set key value).entries.filter fun entry => lower entry.1 = name) =
      headers.entries.filter fun entry => lower entry.1 = name := by
  simp only [HeaderMap.entries_set, List.filter_append, List.filter_filter]
  rw [List.filter_cons_of_neg (by simpa using other), List.filter_nil, List.append_nil]
  apply List.filter_congr
  intro entry _
  by_cases same : lower entry.1 = name
  · simp [same, Ne.symm other]
  · simp [same]

/-- The framing of a request depends on two of its fields only. -/
theorem requestFraming_congr {fields fields' : List Rfc9112.Field}
    (encoding : Rfc9112.transferEncoding fields = Rfc9112.transferEncoding fields')
    (length : Rfc9112.contentLength fields = Rfc9112.contentLength fields') :
    Rfc9112.requestFraming fields = Rfc9112.requestFraming fields' := by
  unfold Rfc9112.requestFraming
  rw [encoding, length]

theorem requestFraming_set_host {headers : HeaderMap} {value : Bytes}
    (colonless : ∀ entry ∈ headers.entries, COLON ∉ entry.1)
    (colonless' : ∀ entry ∈ (headers.set (ascii "host") value).entries, COLON ∉ entry.1) :
    Rfc9112.requestFraming (wireFields (headers.set (ascii "host") value)) =
      Rfc9112.requestFraming (wireFields headers) := by
  have encoding : lower (ascii "host") ≠ ascii "transfer-encoding" := by decide
  have length : lower (ascii "host") ≠ ascii "content-length" := by decide
  apply requestFraming_congr
  · rw [Rfc9112.transferEncoding, valuesOf_wireFields colonless', filter_set_of_ne _ _ encoding,
      Rfc9112.transferEncoding, valuesOf_wireFields colonless]
  · rw [Rfc9112.contentLength, valuesOf_wireFields colonless', filter_set_of_ne _ _ length,
      Rfc9112.contentLength, valuesOf_wireFields colonless]

/-- A head forwarded from an HTTP/1.1 client fits the words and lines it is written to. -/
theorem writable_of_forwarded {rules : List Router.Rule} {raw : Bytes}
    {parsed head : HttpRequestHead} (parse : parseHeaderBlock raw = .ok parsed)
    (forwarded : (dispatch rules parsed).forwarded = some head) :
    Writable head ∧ Word (wireH1Version head.version) ∧
      Rfc9112.requestFraming (wireFields head.headers) =
        Rfc9112.requestFraming (wireFields parsed.headers) := by
  obtain ⟨writable, versionWord⟩ := writable_of_parseHeaderBlock parse
  rcases forwarded_dispatch forwarded with rfl | ⟨absolute, rfl⟩
  · exact ⟨writable, versionWord, rfl⟩
  · have forwardWritable : Writable (forwardHead parsed) := by
      refine { writable with entries := ?_ }
      intro entry entryMem
      simp only [forwardHead, HeaderMap.entries_set, List.mem_append, List.mem_filter,
        List.mem_singleton] at entryMem
      rcases entryMem with ⟨old, -⟩ | rfl
      · exact writable.entries entry old
      · have authorityWord := word_authority_of_absolute parse absolute
        exact ⟨(by decide : COLON ∉ ascii "host"), (by decide : LF ∉ ascii "host"),
          authorityWord.not_mem (by decide)⟩
    refine ⟨forwardWritable, versionWord, requestFraming_set_host ?_ ?_⟩
    · exact fun entry entryMem => (writable.entries entry entryMem).colonless
    · exact fun entry entryMem => (forwardWritable.entries entry entryMem).colonless

/-! ## Requests from an HTTP/1.1 client -/

theorem requestFraming_ne_untilClose (fields : List Rfc9112.Field) :
    Rfc9112.requestFraming fields ≠ .untilClose := by
  unfold Rfc9112.requestFraming
  split_ifs
  · simp
  · simp
  · split <;> simp
  · simp

theorem exists_delimits_iff (fields : List Rfc9112.Field) (body : Bytes) :
    (∃ content, (Rfc9112.requestFraming fields).Delimits body content) ↔
      FitsBody body (Rfc9112.requestFraming fields) := by
  cases framing : Rfc9112.requestFraming fields with
  | length bytes => simp [FitsBody, Rfc9112.Framing.Delimits]
  | chunked => rfl
  | untilClose => exact (requestFraming_ne_untilClose _ framing).elim
  | invalid => simp [FitsBody, Rfc9112.Framing.Delimits]

/-- A receiver finds one request in what is written iff the received lines announce the rest. -/
theorem isOneRequest_iff (head : HttpRequestHead) (body : Bytes) :
    IsOneRequest head body ↔
      ∃ start lines stray, receivedLines (requestLines head) = (start :: lines, stray) ∧
        FitsBody (stray ++ body) (Rfc9112.requestFraming (Rfc9112.fields lines)) := by
  have message := message?_unlines (requestLines head) body
  rw [← requestBytes_eq_unlines] at message
  unfold IsOneRequest Rfc9112.RequestMessage
  rw [message]
  constructor
  · rintro ⟨content, start, lines, rest, same, delimits⟩
    rcases Prod.mk.inj (Option.some.inj same) with ⟨isLines, rfl⟩
    exact ⟨start, lines, _, Prod.ext isLines rfl, (exists_delimits_iff _ _).mp ⟨content, delimits⟩⟩
  · rintro ⟨start, lines, stray, received, fits⟩
    rcases (exists_delimits_iff _ _).mpr fits with ⟨content, delimits⟩
    exact ⟨content, start, lines, stray ++ body, by rw [received], delimits⟩

/-- Lines without line ends in them are all received. -/
theorem isOneRequest_iff_of_unbroken {head : HttpRequestHead}
    (unbroken : ∀ line ∈ requestLines head, ¬crlf <:+: line) (body : Bytes) :
    IsOneRequest head body ↔
      FitsBody body (Rfc9112.requestFraming (wireFields head.headers)) := by
  rw [isOneRequest_iff, receivedLines_of_unbroken unbroken (nil_not_mem_requestLines head)]
  constructor
  · rintro ⟨start, lines, stray, ⟨⟩, fits⟩
    exact fits
  · intro fits
    exact ⟨_, _, _, rfl, fits⟩

theorem requestMessage_iff {head : HttpRequestHead} (writable : Writable head)
    (versionWord : Word (wireH1Version head.version)) (body : Bytes) :
    IsOneRequest head body ↔
      FitsBody body (Rfc9112.requestFraming (wireFields head.headers)) := by
  apply isOneRequest_iff_of_unbroken
  intro line lineMem
  exact unbroken_of_lf_notMem (requestLines_unbroken writable versionWord line lineMem)

theorem length_forwardedPart_eq_iff {bytes overread : ℕ} {after : Bytes} :
    (forwardedPart overread (min bytes ulongMax) after).length = bytes ↔
      bytes < 2 ^ 64 ∧ bytes ≤ after.length ∧ (overread = 0 ∨ bytes ≤ overread) := by
  have limit : ulongMax = 2 ^ 64 - 1 := rfl
  unfold forwardedPart
  split
  · simp only [List.length_take]
    omega
  · simp only [List.length_drop, List.length_take]
    omega

/-- What is forwarded for a head fits exactly when the request fits its framing. -/
theorem fitsBody_forwardedPart_iff {headers : HeaderMap}
    (colonless : ∀ entry ∈ headers.entries, COLON ∉ entry.1) (overread : ℕ) (after : Bytes) :
    FitsBody (forwardedPart overread (headers.declaredLength.getD 0) after)
        (Rfc9112.requestFraming (wireFields headers)) ↔
      FitsFraming headers overread after := by
  rw [FitsFraming]
  cases framing : Rfc9112.requestFraming (wireFields headers) with
  | length bytes =>
    rw [declaredLength_of_requestFraming colonless framing]
    exact length_forwardedPart_eq_iff
  | chunked | untilClose | invalid => rfl

theorem isOneRequest_iff_of_h1 {rules : List Router.Rule} {stream rest : InStream}
    {parsed : ParsedRequest} {head : HttpRequestHead}
    (parse : H1Codec.asyncParseRequest stream = (.ok parsed, rest))
    (forwarded : (dispatch rules parsed.head).forwarded = some head) (examined : ℕ → UInt8) :
    IsOneRequest head (pumpBody examined parsed.body rest).written ↔ Forwardable stream := by
  obtain ⟨block, bodyPrefix, found, blockParse, body, -, -, reached⟩ :=
    asyncParseRequest_eq_ok parse
  obtain ⟨writable, versionWord, framing⟩ := writable_of_forwarded blockParse forwarded
  have forwardable : Forwardable stream ↔
      FitsFraming parsed.head.headers bodyPrefix.length (bodyPrefix ++ rest.bytes) := by
    unfold Forwardable
    rw [found]
    constructor
    · rintro ⟨block', after', head', same, blockParse', fits⟩
      simp only [Option.some.injEq, Prod.mk.injEq] at same
      obtain ⟨rfl, rfl⟩ := same
      rw [blockParse, Except.ok.injEq] at blockParse'
      rwa [← blockParse', reached] at fits
    · intro fits
      exact ⟨block, _, parsed.head, rfl, blockParse, by rwa [reached]⟩
  rw [requestMessage_iff writable versionWord, forwardable, body, pump_requestBody,
    contentLength_of_parseHeaderBlock blockParse, framing]
  refine fitsBody_forwardedPart_iff (fun entry entryMem => ?_) _ _
  exact ((writable_of_parseHeaderBlock blockParse).1.entries entry entryMem).colonless

/-! ## Requests from an HTTP/3 client -/

theorem absoluteTarget_requestHeadFromHeaders (raw : HeaderList) :
    (requestHeadFromHeaders raw).absoluteTarget = false := by
  suffices kept : ∀ head : HttpRequestHead,
      (raw.foldl takeRequestField head).absoluteTarget = head.absoluteTarget from kept _
  induction raw with
  | nil => exact fun head => rfl
  | cons field raw ih =>
    intro head
    rw [List.foldl_cons, ih]
    unfold takeRequestField
    split_ifs <;> rfl

theorem requestLines_requestHeadFromHeaders (raw : HeaderList) :
    requestLines (requestHeadFromHeaders raw) =
      startLine raw :: (sentFields raw).map HeaderMap.wireLine := by
  rw [requestLines, entries_requestHeadFromHeaders, requestLine,
    wireH1Version_requestHeadFromHeaders, method_requestHeadFromHeaders,
    path_requestHeadFromHeaders, startLine]

section Unbroken

variable {raw : HeaderList}

/-- A blank or a colon between two parts completes no line end. -/
theorem unbroken_join {first second : Bytes} {symbol : UInt8}
    (between : symbol = SP ∨ symbol = COLON) (left : ¬crlf <:+: first)
    (right : ¬crlf <:+: second) : ¬crlf <:+: first ++ symbol :: second := by
  rcases between with rfl | rfl
  · exact unbroken_append_cons (by decide) (by decide) left right
  · exact unbroken_append_cons (by decide) (by decide) left right

theorem Unbroken.sent (unbroken : Unbroken raw) :
    ∀ entry ∈ sentFields raw,
      COLON ∉ entry.1 ∧ ¬crlf <:+: entry.1 ∧ ¬crlf <:+: entry.2 := by
  intro entry isSent
  rcases (mem_sentFields_iff raw entry).mp isSent with written | ⟨isHost, last⟩
  · exact unbroken.fields entry written
  · rw [isHost]
    exact ⟨by decide, by decide, unbroken.authority _ last⟩

theorem Unbroken.startLine (unbroken : Unbroken raw) : ¬crlf <:+: RelaySession.startLine raw := by
  have part : ∀ value : Option Bytes, (∀ text ∈ value, ¬crlf <:+: text) →
      ¬crlf <:+: value.getD [] := by
    intro value each
    cases value with
    | none => exact (by decide : ¬crlf <:+: ([] : Bytes))
    | some text => exact each text rfl
  have blank : ascii " " = [SP] := by decide
  rw [RelaySession.startLine, blank, List.append_assoc, List.append_assoc, List.append_assoc]
  apply unbroken_join (.inl rfl) (part _ unbroken.method)
  apply unbroken_join (.inl rfl) (part _ unbroken.path)
  decide

theorem Unbroken.lines (unbroken : Unbroken raw) :
    ∀ line ∈ requestLines (requestHeadFromHeaders raw), ¬crlf <:+: line := by
  rw [requestLines_requestHeadFromHeaders, List.forall_mem_cons, List.forall_mem_map]
  refine ⟨unbroken.startLine, ?_⟩
  intro entry isSent
  rcases unbroken.sent entry isSent with ⟨-, name, value⟩
  have separator : ascii ": " = [COLON, SP] := by decide
  rw [HeaderMap.wireLine, separator, List.append_assoc]
  exact unbroken_join (.inr rfl) name
    (unbroken_join (.inl rfl) (by decide : ¬crlf <:+: ([] : Bytes)) value)

/-- The fields of the list announce what the written lines announce. -/
theorem Unbroken.requestFraming_eq (unbroken : Unbroken raw) :
    Rfc9112.requestFraming (wireFields (requestHeadFromHeaders raw).headers) =
      Rfc9112.requestFraming ((regularFields raw).map fun field => (field.1, trim field.2)) := by
  have colonless : ∀ entry ∈ (requestHeadFromHeaders raw).headers.entries, COLON ∉ entry.1 := by
    rw [entries_requestHeadFromHeaders]
    exact fun entry isSent => (unbroken.sent entry isSent).1
  have values : ∀ name, name ≠ ascii "host" →
      Rfc9112.valuesOf name (wireFields (requestHeadFromHeaders raw).headers) =
        Rfc9112.valuesOf name ((regularFields raw).map fun field => (field.1, trim field.2)) := by
    intro name other
    rw [valuesOf_wireFields colonless, entries_requestHeadFromHeaders, filter_sentFields other,
      Rfc9112.valuesOf, List.filter_map, List.map_map]
    rfl
  exact requestFraming_congr (values _ (by decide)) (values _ (by decide))

end Unbroken

/--
The bytes that a TCP backend receives for a forwarded request are exactly one
request message precisely when the framing that the written fields announce fits
the forwarded body: for an HTTP/1.1 client when the announced length was not cut by
the header read, or a chunked body was announced by its length as well; for an
HTTP/3 client when the fields of the decoded list announce the length of the DATA.
A list with a line end in a written part is first cut there.
-/
theorem forwarded_isOneRequest_iff (rules : List Router.Rule) :
    (∀ stream rest parsed head examined,
      H1Codec.asyncParseRequest stream = (.ok parsed, rest) →
        (dispatch rules parsed.head).forwarded = some head →
          (IsOneRequest head (pumpBody examined parsed.body rest).written ↔
            Forwardable stream)) ∧
    (∀ raw stream head examined,
      (dispatch rules (H3Codec.asyncParseRequest raw).head).forwarded = some head →
        (Unbroken raw →
          (IsOneRequest head
              (pumpBody examined (H3Codec.asyncParseRequest raw).body stream).written ↔
            DataFits raw stream.bytes)) ∧
        (¬Unbroken raw →
          (IsOneRequest head
              (pumpBody examined (H3Codec.asyncParseRequest raw).body stream).written ↔
            CutFits raw stream.bytes))) := by
  constructor
  · intro stream rest parsed head examined parse forwarded
    exact isOneRequest_iff_of_h1 parse forwarded examined
  · intro raw stream head examined forwarded
    have isHead : head = requestHeadFromHeaders raw := by
      rcases forwarded_dispatch forwarded with rfl | ⟨absolute, -⟩
      · rfl
      · cases (absoluteTarget_requestHeadFromHeaders raw).symm.trans absolute
    rw [isHead]
    simp only [H3Codec.asyncParseRequest, pumpBody, pump_streamEof]
    constructor
    · intro unbroken
      rw [isOneRequest_iff_of_unbroken unbroken.lines, unbroken.requestFraming_eq]
      rfl
    · intro _
      rw [isOneRequest_iff, requestLines_requestHeadFromHeaders]
      rfl

/-- Everything is routed to one backend. -/
def wildcard : List Router.Rule := [⟨ascii "*", ascii "b"⟩]

/-- A chunked request without `Content-Length`. -/
def chunkedRequest : InStream :=
  ⟨[⟨ascii "POST / HTTP/1.1\r\nTransfer-Encoding: chunked\r\n\r\n", by decide⟩,
    ⟨ascii "5\r\nhello\r\n0\r\n\r\n", by decide⟩], .error .eof⟩

/-- A chunked request. -/
def chunkedHead : HttpRequestHead :=
  { method := ascii "POST", path := ascii "/", scheme := ascii "http",
    headers := ⟨[(ascii "Transfer-Encoding", ascii "chunked")]⟩ }

/-- The backend waits for a chunked body that was left on the client connection. -/
theorem chunkedRequest_not_isOneRequest :
    asyncParseRequest chunkedRequest = (.ok ⟨chunkedHead, none, true⟩,
        ⟨[⟨ascii "5\r\nhello\r\n0\r\n\r\n", by decide⟩], .error .eof⟩) ∧
      (dispatch wildcard chunkedHead).forwarded = some chunkedHead ∧
      requestBytes chunkedHead =
        ascii "POST / HTTP/1.1\r\nTransfer-Encoding: chunked\r\n\r\n" ∧
      ∀ examined rest, (pumpBody examined none rest).outcome = none ∧
        ¬IsOneRequest chunkedHead (pumpBody examined none rest).written := by
  have blockParse : parseHeaderBlock
      (ascii "POST / HTTP/1.1\r\nTransfer-Encoding: chunked\r\n\r\n") = .ok chunkedHead := by
    decide +kernel
  have forwarded : (dispatch wildcard chunkedHead).forwarded = some chunkedHead := by
    decide +kernel
  obtain ⟨writable, versionWord, -⟩ := writable_of_forwarded blockParse forwarded
  refine ⟨by decide +kernel, forwarded, by decide +kernel, fun examined rest => ⟨rfl, ?_⟩⟩
  have framing : Rfc9112.requestFraming (wireFields chunkedHead.headers) = .chunked := by
    decide +kernel
  rw [requestMessage_iff writable versionWord, framing]
  rintro ⟨content, coded⟩
  exact Rfc9112.not_chunkedBody_nil content coded

/-- A request with a length, whose body arrives in a read of its own. -/
def sizedRequest : InStream :=
  ⟨[⟨ascii "POST / HTTP/1.1\r\nContent-Length: 2\r\n\r\n", by decide⟩,
    ⟨ascii "hi", by decide⟩], .error .eof⟩

/-- A request with a length. -/
def sizedHead : HttpRequestHead :=
  { method := ascii "POST", path := ascii "/", scheme := ascii "http",
    headers := ⟨[(ascii "Content-Length", ascii "2")]⟩, contentLength := some 2 }

/-- The same request from an HTTP/3 client. -/
def sizedList : HeaderList :=
  [(ascii ":method", ascii "POST"), (ascii ":path", ascii "/"), (ascii ":authority", ascii "a"),
    (ascii "content-length", ascii "2")]

theorem sizedRequest_isOneRequest :
    asyncParseRequest sizedRequest = (.ok ⟨sizedHead, some (.stream 2), true⟩,
        ⟨[⟨ascii "hi", by decide⟩], .error .eof⟩) ∧
      (dispatch wildcard sizedHead).forwarded = some sizedHead ∧
      IsOneRequest sizedHead (pumpBody (fun _ => 0) (some (.stream 2))
        ⟨[⟨ascii "hi", by decide⟩], .error .eof⟩).written ∧
      IsOneRequest (requestHeadFromHeaders sizedList)
        (pumpBody (fun _ => 0) (some .streamEof) ⟨[⟨ascii "hi", by decide⟩], .fin⟩).written := by
  have parse : asyncParseRequest sizedRequest = (.ok ⟨sizedHead, some (.stream 2), true⟩,
      ⟨[⟨ascii "hi", by decide⟩], .error .eof⟩) := by
    decide +kernel
  have forwarded : (dispatch wildcard sizedHead).forwarded = some sizedHead := by decide +kernel
  refine ⟨parse, forwarded, ((forwarded_isOneRequest_iff wildcard).1 _ _ _ _ (fun _ => 0) parse
    forwarded).mpr ?_, ?_⟩
  · refine ⟨ascii "POST / HTTP/1.1\r\nContent-Length: 2", ascii "hi", sizedHead,
      by decide +kernel, by decide +kernel, ?_⟩
    have framing : Rfc9112.requestFraming (wireFields sizedHead.headers) = .length 2 := by
      decide +kernel
    have none : overread sizedRequest
        (ascii "POST / HTTP/1.1\r\nContent-Length: 2" ++ crlfcrlf).length = 0 := by
      decide +kernel
    rw [FitsFraming, framing, none]
    decide +kernel
  · have listed : (dispatch wildcard (requestHeadFromHeaders sizedList)).forwarded =
        some (requestHeadFromHeaders sizedList) := by
      decide +kernel
    have unbroken : Unbroken sizedList :=
      ⟨by decide +kernel, by decide +kernel, by decide +kernel, by decide +kernel⟩
    have framing : Rfc9112.requestFraming
        ((regularFields sizedList).map fun field => (field.1, trim field.2)) = .length 2 := by
      decide +kernel
    apply (((forwarded_isOneRequest_iff wildcard).2 sizedList _ _ _ listed).1 unbroken).mpr
    rw [DataFits, framing]
    rfl

end RelaySession

end ReverseProxy
