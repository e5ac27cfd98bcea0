import ReverseProxy.Text.Ascii
import ReverseProxy.Text.Lines

/-!
# HTTP/1.1 message framing

The rules of RFC 9112 for finding the end of a message on the wire, stated
independently of any implementation: a message is a section of lines ended by
CRLF (§2.1), and the length of the body behind it follows from the method, the
status and the `Transfer-Encoding` and `Content-Length` fields (§6.3).

`RequestMessage` and `ResponseMessage` hold of the byte strings that are exactly
one message, with nothing missing and nothing left over.
-/

namespace Rfc9112

open Text

/-- A name and a value. -/
abbrev Field := Bytes × Bytes

/-- `field-line = field-name ":" OWS field-value OWS` (§5). -/
def field? (line : Bytes) : Option Field :=
  (line.dropInfix? [COLON]).map fun cut => (cut.1, trim cut.2)

/-- The fields of some lines. -/
def fields (lines : List Bytes) : List Field :=
  lines.filterMap field?

/-- The values of the fields of one name, compared without case. -/
def valuesOf (name : Bytes) (fields : List Field) : List Bytes :=
  (fields.filter fun field => lower field.1 = name).map Prod.snd

/-- The elements of the comma-separated list which the fields of one name make up. -/
def elements (values : List Bytes) : List Bytes :=
  (values.flatMap fun value => value.splitOn 44).map trim

/-- `1*DIGIT`. -/
def number? (text : Bytes) : Option ℕ :=
  if text ≠ [] ∧ text.all isDigit then some (ofDigits 10 (leadingDigits 10 text)) else none

/-- The one length that all elements of the `Content-Length` fields agree on (§6.3, item 5). -/
def contentLength? (values : List Bytes) : Option ℕ :=
  match (elements values).map number? with
  | some first :: rest => if rest.all (· = some first) then some first else none
  | _ => none

/-- Whether `chunked` is the final transfer coding (§6.1). -/
def finalCodingIsChunked (values : List Bytes) : Bool :=
  match (elements values).getLast? with
  | some coding => lower coding = ascii "chunked"
  | none => false

/-- How the end of a message body is found (§6.3). -/
inductive Framing where
  /-- A body of so many bytes; zero when the message has no body. -/
  | length (bytes : ℕ)
  | chunked
  | untilClose
  /-- The length cannot be determined reliably. -/
  | invalid
  deriving DecidableEq, Repr

/-- The values of `Transfer-Encoding`. -/
def transferEncoding (fields : List Field) : List Bytes :=
  valuesOf (ascii "transfer-encoding") fields

/-- The values of `Content-Length`. -/
def contentLength (fields : List Field) : List Bytes :=
  valuesOf (ascii "content-length") fields

/-- The framing of a request body from its fields. -/
def requestFraming (fields : List Field) : Framing :=
  if transferEncoding fields ≠ [] then
    if finalCodingIsChunked (transferEncoding fields) then .chunked else .invalid
  else if contentLength fields ≠ [] then
    match contentLength? (contentLength fields) with
    | some bytes => .length bytes
    | none => .invalid
  else .length 0

/-- Whether a response to this method with this status has no body, whatever its fields. -/
def bodiless (method : Bytes) (status : ℕ) : Bool :=
  method = ascii "HEAD" || status / 100 = 1 || status = 204 || status = 304 ||
    (method = ascii "CONNECT" && status / 100 = 2)

/-- The framing of a response body from the request method, the status and the fields. -/
def responseFraming (method : Bytes) (status : ℕ) (fields : List Field) : Framing :=
  if bodiless method status then .length 0
  else if transferEncoding fields ≠ [] then
    if finalCodingIsChunked (transferEncoding fields) then .chunked else .untilClose
  else if contentLength fields ≠ [] then
    match contentLength? (contentLength fields) with
    | some bytes => .length bytes
    | none => .invalid
  else .untilClose

/-- `chunk-size [ chunk-ext ]` announcing the given number of bytes (§7.1). -/
def ChunkSizeLine (line : Bytes) (size : ℕ) : Prop :=
  ∃ numeral extension, line = numeral ++ extension ∧ numeral ≠ [] ∧
    (∀ byte ∈ numeral, (digitValue 16 byte).isSome) ∧
    ofDigits 16 (leadingDigits 16 numeral) = size ∧
    (∀ byte ∈ extension.head?, byte = 59 ∨ isBlank byte = true) ∧
    CR ∉ extension ∧ LF ∉ extension

/-- `chunked-body = *chunk last-chunk trailer-section CRLF` and the content it carries (§7.1). -/
inductive ChunkedBody : Bytes → Bytes → Prop where
  | last {line : Bytes} {trailers : List Bytes} (size : ChunkSizeLine line 0)
      (trailer : ∀ field ∈ trailers, field ≠ [] ∧ ¬crlf <:+: field) :
      ChunkedBody (line ++ crlf ++ unlines crlf trailers ++ crlf) []
  | chunk {line data rest content : Bytes} (size : ChunkSizeLine line data.length)
      (nonempty : data ≠ []) (more : ChunkedBody rest content) :
      ChunkedBody (line ++ crlf ++ data ++ crlf ++ rest) (data ++ content)

/-- The bytes after the header section are exactly one body with the given content. -/
def Framing.Delimits (body content : Bytes) : Framing → Prop
  | .length bytes => body.length = bytes ∧ content = body
  | .chunked => ChunkedBody body content
  | .untilClose => content = body
  | .invalid => False

/-- Splits a message into the lines of its header section and the bytes behind it (§2.1). -/
def message? (wire : Bytes) : Option (List Bytes × Bytes) :=
  takeSection? CR LF [] wire

/-- The bytes are exactly one request with the given content. -/
def RequestMessage (wire content : Bytes) : Prop :=
  ∃ startLine lines body, message? wire = some (startLine :: lines, body) ∧
    (requestFraming (fields lines)).Delimits body content

/-- The length of the body behind a header section, where the fields of a request give one. -/
def requestLength? (wire : Bytes) : Option ℕ :=
  match message? wire with
  | some (_ :: lines, _) =>
    match requestFraming (fields lines) with
    | .length bytes => some bytes
    | _ => none
  | _ => none

/-- `status-line = HTTP-version SP status-code SP [ reason-phrase ]` (§4). -/
def status? (line : Bytes) : Option ℕ :=
  match (line.dropWhile (· ≠ SP)) with
  | _ :: a :: b :: c :: rest =>
    if isDigit a ∧ isDigit b ∧ isDigit c ∧ (rest = [] ∨ rest.head? = some SP) then
      number? [a, b, c]
    else none
  | _ => none

/-- The status and the fields of a response, and the bytes behind its header section. -/
def responseHead? (wire : Bytes) : Option (ℕ × List Field × Bytes) :=
  match message? wire with
  | some (statusLine :: lines, body) =>
    (status? statusLine).map fun status => (status, fields lines, body)
  | _ => none

/-- The bytes are exactly one response to the method, with the given status, framing and content. -/
def ResponseMessage (method wire : Bytes) (status : ℕ) (framing : Framing) (content : Bytes) :
    Prop :=
  ∃ fields body, responseHead? wire = some (status, fields, body) ∧
    framing = responseFraming method status fields ∧ framing.Delimits body content

theorem responseHead?_eq_some {wire body : Bytes} {status : ℕ} {fields : List Field}
    (taken : responseHead? wire = some (status, fields, body)) :
    ∃ statusLine lines, message? wire = some (statusLine :: lines, body) ∧
      status? statusLine = some status ∧ fields = Rfc9112.fields lines := by
  unfold responseHead? at taken
  split at taken
  · rename_i statusLine lines body' split
    simp only [Option.map_eq_some_iff, Prod.mk.injEq] at taken
    rcases taken with ⟨status', isStatus, rfl, rfl, rfl⟩
    exact ⟨statusLine, lines, split, isStatus, rfl⟩
  · simp at taken

theorem responseHead?_append {wire body : Bytes} {status : ℕ} {fields : List Field}
    (taken : responseHead? wire = some (status, fields, body)) (more : Bytes) :
    responseHead? (wire ++ more) = some (status, fields, body ++ more) := by
  rcases responseHead?_eq_some taken with ⟨statusLine, lines, split, isStatus, rfl⟩
  have splitMore : message? (wire ++ more) = some (statusLine :: lines, body ++ more) :=
    takeSection?_append split more
  simp [responseHead?, splitMore, isStatus]

theorem requestLength?_eq_some {wire : Bytes} {bytes : ℕ}
    (determined : requestLength? wire = some bytes) :
    ∃ startLine lines body, message? wire = some (startLine :: lines, body) ∧
      requestFraming (fields lines) = .length bytes := by
  unfold requestLength? at determined
  split at determined
  · rename_i startLine lines body taken
    split at determined
    · rename_i framing
      simp only [Option.some.injEq] at determined
      subst determined
      exact ⟨startLine, lines, body, taken, framing⟩
    · simp at determined
  · simp at determined

/-- A text that begins with all of a request contains it as a message of its own. -/
theorem exists_requestMessage {wire startLine body : Bytes} {lines : List Bytes} {bytes : ℕ}
    (taken : message? wire = some (startLine :: lines, body))
    (framing : requestFraming (fields lines) = .length bytes) (whole : bytes ≤ body.length) :
    ∃ message more content, wire = message ++ more ∧ RequestMessage message content := by
  rcases takeSection?_eq_some taken with ⟨used, rfl, anyOther⟩
  refine ⟨used ++ body.take bytes, body.drop bytes, body.take bytes, by simp, ?_⟩
  refine ⟨startLine, lines, body.take bytes, anyOther _, ?_⟩
  rw [framing]
  exact ⟨by simpa using whole, rfl⟩

/-- Chunked coding never shortens: the content is smaller than the body that carries it. -/
theorem ChunkedBody.length_lt {body content : Bytes} (coded : ChunkedBody body content) :
    content.length < body.length := by
  induction coded with
  | last size trailer => simp [crlf]
  | chunk size nonempty more ih =>
    simp [crlf]
    omega

/-- A body that is its own content, as a length or up to the end of the connection. -/
theorem Framing.delimits_self_iff {framing : Framing} {body : Bytes} :
    framing.Delimits body body ↔ framing = .untilClose ∨ framing = .length body.length := by
  cases framing with
  | length bytes => simp [Delimits, eq_comm]
  | chunked =>
    simp only [Delimits, reduceCtorEq, or_self, iff_false]
    intro coded
    exact absurd coded.length_lt (lt_irrefl _)
  | untilClose => simp [Delimits]
  | invalid => simp [Delimits]

theorem not_chunkedBody_nil (content : Bytes) : ¬ChunkedBody [] content := by
  intro coded
  simpa using coded.length_lt

/-- What the first `Content-Length` field looks like when all of them agree on a length. -/
theorem exists_numeral_of_contentLength? {values : List Bytes} {bytes : ℕ}
    (agreed : contentLength? values = some bytes) :
    ∃ value rest before numeral after, values = value :: rest ∧
      value = before ++ numeral ++ after ∧ (∀ byte ∈ before, isBlank byte = true) ∧
      number? numeral = some bytes ∧ ∀ byte ∈ after.head?, isDigit byte = false := by
  cases values with
  | nil => simp [contentLength?, elements] at agreed
  | cons value rest =>
    obtain ⟨element, others, split⟩ :=
      List.exists_cons_of_ne_nil (List.splitOn_ne_nil (44 : UInt8) value)
    have first : number? (trim element) = some bytes := by
      simp only [contentLength?, elements, List.flatMap_cons, split, List.cons_append,
        List.map_cons] at agreed
      split at agreed
      · rename_i first rest' same
        simp only [List.cons.injEq] at same
        split_ifs at agreed
        rw [same.1]
        exact agreed
      · simp at agreed
    obtain ⟨before, after, parts, blanks, blanksAfter⟩ := trim_parts element
    have whole : value = [44].intercalate (element :: others) := by
      rw [← split, List.intercalate_splitOn]
    have stop : ∃ tail, value = element ++ tail ∧ ∀ byte ∈ tail.head?, byte = 44 := by
      cases others with
      | nil => exact ⟨[], by simpa using whole, by simp⟩
      | cons other others =>
        refine ⟨44 :: [44].intercalate (other :: others), ?_, by simp⟩
        rw [whole]
        simp [List.intercalate, List.intersperse]
    obtain ⟨tail, behind, comma⟩ := stop
    refine ⟨value, rest, before, trim element, after ++ tail, rfl, ?_, blanks, first, ?_⟩
    · rw [behind]
      conv_lhs => rw [parts]
      simp
    · intro byte byteMem
      cases after with
      | nil =>
        rw [comma byte (by simpa using byteMem)]
        decide
      | cons blank after =>
        obtain rfl : blank = byte := by simpa using byteMem
        exact isDigit_of_isBlank blank (blanksAfter blank (by simp))

theorem number?_decimal (value : ℕ) : number? (decimal value) = some value := by
  have nonempty : decimal value ≠ [] := by
    simp [decimal_eq, decimalDigits_ne_nil]
  have digits : (decimal value).all isDigit = true := by
    rw [List.all_eq_true]
    exact fun byte byteMem => isDigit_of_mem_decimal byteMem
  rw [number?, if_pos ⟨nonempty, digits⟩, leadingDigits_decimal, ofDigits_decimalDigits]

theorem contentLength?_decimal (value : ℕ) : contentLength? [decimal value] = some value := by
  have single : (decimal value).splitOn 44 = [decimal value] := by
    rw [List.splitOn, List.splitOnP_eq_singleton]
    intro byte byteMem
    rw [beq_eq_false_iff_ne]
    rintro rfl
    exact absurd (isDigit_of_mem_decimal byteMem) (by decide)
  simp [contentLength?, elements, single, trim_decimal, number?_decimal]

theorem number?_eq_some {text : Bytes} {value : ℕ} (number : number? text = some value) :
    text ≠ [] ∧ (∀ byte ∈ text, isDigit byte = true) ∧
      ofDigits 10 (leadingDigits 10 text) = value := by
  unfold number? at number
  split at number
  · rename_i digits
    simp only [Option.some.injEq] at number
    exact ⟨digits.1, by simpa using digits.2, number⟩
  · simp at number

end Rfc9112
