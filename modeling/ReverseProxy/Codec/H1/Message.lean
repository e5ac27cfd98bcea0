import Mathlib.Data.List.TakeWhile
import ReverseProxy.Codec.BodySource

/-!
# HTTP/1.1 message heads

The pure part of `H1Codec` (`codec/h1_codec.cpp`): parsing the block of bytes up
to CRLFCRLF into a head, deciding keep-alive and the body source from a head, and
serializing heads.  Reading the block from a stream is the subject of
`Codec.H1.Stream`.
-/

namespace ReverseProxy

open Text

namespace H1Codec

/-! ## Stream extraction -/

/-- Removes one trailing CR from a line returned by `getline`. -/
def stripCr (line : Bytes) : Bytes :=
  if line.getLast? = some CR then line.dropLast else line

/-- `operator>>` into a string: the next word and what follows it. -/
def extractWord (text : Bytes) : Bytes × Bytes :=
  let text := text.dropWhile isSpace
  (text.takeWhile fun byte => !isSpace byte, text.dropWhile fun byte => !isSpace byte)

/-- `INT_MAX`. -/
def intMax : ℤ := 2 ^ 31 - 1
/-- `INT_MIN`. -/
def intMin : ℤ := -2 ^ 31

/--
`operator>>` into an `int`: the value stored, and what follows the numeral
unless the extraction failed, as it does on overflow.
-/
def extractInt (text : Bytes) : ℤ × Option Bytes :=
  let signed := splitSign (text.dropWhile isSpace)
  match leadingDigits 10 signed.2 with
  | [] => (0, none)
  | digits =>
    let value : ℤ := if signed.1 then -(ofDigits 10 digits) else ofDigits 10 digits
    if intMax < value then (intMax, none)
    else if value < intMin then (intMin, none)
    else (value, some (signed.2.drop digits.length))

/-- Drops leading blanks, but leaves a text of nothing but blanks alone. -/
def trimBlanks (text : Bytes) : Bytes :=
  if text.all isBlank then text else trimLeft text

/-- A text contains the pattern (`find` does not return `npos`). -/
def contains (pattern text : Bytes) : Bool :=
  (text.dropInfix? pattern).isSome

/-! ## Keep-alive decision -/

/-- `version_keeps_alive`. -/
def versionKeepsAlive (version : Bytes) : Bool :=
  !(ascii "HTTP/1.0").isPrefixOf version

/-- The first `Connection` field holds a text. -/
def connectionSays (token : Bytes) (headers : HeaderMap) : Bool :=
  match headers.get (ascii "connection") with
  | some value => contains token value
  | none => false

/-- `header_says_close`. -/
def headerSaysClose (headers : HeaderMap) : Bool :=
  connectionSays (ascii "close") headers

/-- `header_says_keep_alive`. -/
def headerSaysKeepAlive (headers : HeaderMap) : Bool :=
  connectionSays (ascii "keep-alive") headers

/-- `compute_keep_alive`. -/
def computeKeepAlive (headers : HeaderMap) (version : Bytes) : Bool :=
  if headerSaysClose headers then false
  else if headerSaysKeepAlive headers then true
  else versionKeepsAlive version

/-- Preserves a valid HTTP/1.x version, otherwise normalizes to HTTP/1.1. -/
def wireH1Version (version : Bytes) : Bytes :=
  if (ascii "HTTP/1.").isPrefixOf version then version else ascii "HTTP/1.1"

/-! ## Parsing -/

/-- One header line; a line without a colon is skipped. -/
def parseHeaderLine (line : Bytes) : Option (Bytes × Bytes) :=
  (line.dropInfix? [COLON]).map fun cut => (cut.1, trimBlanks cut.2)

/-- The header loop: the lines up to the first empty one. -/
def parseHeaderLines (lines : List Bytes) : HeaderMap :=
  ⟨((lines.map stripCr).takeWhile (· ≠ [])).filterMap parseHeaderLine⟩

/-- Scheme, authority and path of an absolute-form request-target. -/
def absoluteForm? (target : Bytes) : Option (Bytes × Bytes × Bytes) :=
  match target.dropInfix? (ascii "://") with
  | none => none
  | some ([], _) => none
  | some (scheme, rest) =>
    match rest.dropInfix? [SLASH] with
    | none => some (lower scheme, rest, [SLASH])
    | some (authority, path) => some (lower scheme, authority, SLASH :: path)

/-- Assembles a request head, normalizing an absolute-form target to origin-form. -/
def requestHead (method target version : Bytes) (headers : HeaderMap) : HttpRequestHead :=
  match absoluteForm? target with
  | some (scheme, authority, path) =>
    { method, version, path, scheme, authority, absoluteTarget := true, headers,
      contentLength := headers.declaredLength }
  | none =>
    { method, version, path := target, scheme := ascii "http",
      authority := (headers.get (ascii "host")).getD [], headers,
      contentLength := headers.declaredLength }

/-- `parse_header_block`; an error carries its message. -/
def parseHeaderBlock (raw : Bytes) : Except Bytes HttpRequestHead :=
  match getlines LF raw with
  | [] => .error (ascii "empty request")
  | [] :: _ => .error (ascii "empty request")
  | line :: lines =>
    let method := extractWord (stripCr line)
    let target := extractWord method.2
    let version := extractWord target.2
    if method.1 = [] ∨ target.1 = [] then
      .error (ascii "bad request line: " ++ stripCr line)
    else .ok (requestHead method.1 target.1 version.1 (parseHeaderLines lines))

/-- `parse_response_block`; an error carries its message. -/
def parseResponseBlock (raw : Bytes) : Except Bytes HttpResponseHead :=
  match getlines LF raw with
  | [] => .error (ascii "empty response")
  | [] :: _ => .error (ascii "empty response")
  | line :: lines =>
    let version := extractWord (stripCr line)
    let status := extractInt version.2
    if status.1 ≤ 0 then .error (ascii "bad status line: " ++ stripCr line)
    else
      let headers := parseHeaderLines lines
      .ok
        { statusCode := status.1, version := version.1,
          reason := trimBlanks (status.2.getD []), headers,
          contentLength := headers.declaredLength }

/-! ## Body source -/

/--
The body source for a `Content-Length`, given the bytes that were read together
with the header block.  When they are only a part of the body, the source covers
the remainder on the stream and that part is lost.
-/
def lengthBody (contentLength : ℕ) (bodyPrefix : Bytes) : Option BodySource :=
  if bodyPrefix ≠ [] then
    let prefixLen := min bodyPrefix.length contentLength
    if contentLength - prefixLen = 0 then some (.buffer (bodyPrefix.take prefixLen) 0)
    else some (.stream (contentLength - prefixLen))
  else if 0 < contentLength then some (.stream contentLength)
  else none

/-- The body source of a request. -/
def requestBody (head : HttpRequestHead) (bodyPrefix : Bytes) : Option BodySource :=
  match head.contentLength with
  | some contentLength => lengthBody contentLength bodyPrefix
  | none => none

/-- Status-determined responses without a body. -/
def statusHasNoBody (status : ℤ) : Bool :=
  status / 100 = 1 || status = 204 || status = 304

/-- The first `Transfer-Encoding` entry mentions `chunked`. -/
def saysChunked (headers : HeaderMap) : Bool :=
  match headers.get (ascii "transfer-encoding") with
  | some value => contains (ascii "chunked") value
  | none => false

/-- The body source of a response, and whether the body ends when the connection closes. -/
def responseBody (head : HttpResponseHead) (bodyPrefix : Bytes) : Option BodySource × Bool :=
  if statusHasNoBody head.statusCode then (none, false)
  else if saysChunked head.headers then (some (.chunked {}), false)
  else
    match head.contentLength with
    | some contentLength => (lengthBody contentLength bodyPrefix, false)
    | none => (some .streamEof, true)

/-! ## Serialization -/

/-- The request line. -/
def requestLine (head : HttpRequestHead) : Bytes :=
  head.method ++ ascii " " ++ head.path ++ ascii " " ++ wireH1Version head.version

/-- The head that `async_write_request` writes. -/
def requestBytes (head : HttpRequestHead) : Bytes :=
  requestLine head ++ crlf ++ head.headers.toWire ++ crlf

/-- The status line. -/
def statusLine (head : HttpResponseHead) : Bytes :=
  wireH1Version head.version ++ ascii " " ++ toDecimal head.statusCode ++ ascii " " ++
    head.reason

/-- The head that `async_write_response` writes. -/
def responseBytes (head : HttpResponseHead) : Bytes :=
  statusLine head ++ crlf ++ head.headers.toWire ++ crlf

/-! ## What a parsed head can contain -/

/-- An entry that comes from a single header line. -/
structure LineEntry (entry : Bytes × Bytes) : Prop where
  colonless : COLON ∉ entry.1
  nameUnbroken : LF ∉ entry.1
  valueUnbroken : LF ∉ entry.2

theorem mem_of_mem_stripCr {line : Bytes} {byte : UInt8} (byteMem : byte ∈ stripCr line) :
    byte ∈ line := by
  unfold stripCr at byteMem
  split at byteMem
  · exact List.mem_of_mem_dropLast byteMem
  · exact byteMem

theorem mem_of_mem_trimBlanks {text : Bytes} {byte : UInt8} (byteMem : byte ∈ trimBlanks text) :
    byte ∈ text := by
  unfold trimBlanks at byteMem
  split at byteMem
  · exact byteMem
  · exact (List.dropWhile_sublist _).mem byteMem

theorem lineEntry_of_parseHeaderLine {line : Bytes} (unbroken : LF ∉ line)
    {entry : Bytes × Bytes} (parse : parseHeaderLine line = some entry) : LineEntry entry := by
  simp only [parseHeaderLine, Option.map_eq_some_iff] at parse
  obtain ⟨⟨name, value⟩, cut, rfl⟩ := parse
  obtain ⟨split, colonless⟩ := dropInfix?_singleton_eq_some_iff.mp cut
  subst split
  simp only [List.mem_append, List.mem_cons, not_or] at unbroken
  exact ⟨colonless, unbroken.1, fun lfMem => unbroken.2.2 (mem_of_mem_trimBlanks lfMem)⟩

theorem lineEntry_of_mem_parseHeaderLines {raw line : Bytes} {lines : List Bytes}
    (split : getlines LF raw = line :: lines) {entry : Bytes × Bytes}
    (entryMem : entry ∈ (parseHeaderLines lines).entries) : LineEntry entry := by
  simp only [parseHeaderLines, List.mem_filterMap] at entryMem
  obtain ⟨stripped, strippedMem, parse⟩ := entryMem
  obtain ⟨line', lineMem, rfl⟩ := List.mem_map.mp ((List.takeWhile_sublist _).mem strippedMem)
  refine lineEntry_of_parseHeaderLine (fun lfMem => ?_) parse
  have unbroken : LF ∉ line' := newline_not_mem_of_mem_getlines (by rw [split]; simp [lineMem])
  exact unbroken (mem_of_mem_stripCr lfMem)

/-- A word that `operator>>` extracts. -/
def Word (text : Bytes) : Prop :=
  ∀ byte ∈ text, isSpace byte = false

theorem word_extractWord (text : Bytes) : Word (extractWord text).1 := by
  intro byte byteMem
  simpa using List.mem_takeWhile_imp byteMem

theorem parseHeaderBlock_eq_ok {raw : Bytes} {head : HttpRequestHead}
    (parse : parseHeaderBlock raw = .ok head) :
    ∃ line lines, getlines LF raw = line :: lines ∧
      ∃ method target version, extractWord (stripCr line) = method ∧
        extractWord method.2 = target ∧ extractWord target.2 = version ∧
        method.1 ≠ [] ∧ target.1 ≠ [] ∧
        head = requestHead method.1 target.1 version.1 (parseHeaderLines lines) := by
  unfold parseHeaderBlock at parse
  split at parse
  · simp at parse
  · simp at parse
  · rename_i line lines _ split
    refine ⟨line, lines, split, _, _, _, rfl, rfl, rfl, ?_⟩
    dsimp only at parse
    split at parse
    · simp at parse
    · rename_i nonempty
      simp only [Except.ok.injEq] at parse
      rw [not_or] at nonempty
      exact ⟨nonempty.1, nonempty.2, parse.symm⟩

@[simp]
theorem headers_requestHead (method target version : Bytes) (headers : HeaderMap) :
    (requestHead method target version headers).headers = headers := by
  unfold requestHead
  split <;> rfl

@[simp]
theorem method_requestHead (method target version : Bytes) (headers : HeaderMap) :
    (requestHead method target version headers).method = method := by
  unfold requestHead
  split <;> rfl

@[simp]
theorem version_requestHead (method target version : Bytes) (headers : HeaderMap) :
    (requestHead method target version headers).version = version := by
  unfold requestHead
  split <;> rfl

@[simp]
theorem contentLength_requestHead (method target version : Bytes) (headers : HeaderMap) :
    (requestHead method target version headers).contentLength = headers.declaredLength := by
  unfold requestHead
  split <;> rfl

theorem parseResponseBlock_eq_ok {raw : Bytes} {head : HttpResponseHead}
    (parse : parseResponseBlock raw = .ok head) :
    ∃ line lines, getlines LF raw = line :: lines ∧
      ∃ version status, extractWord (stripCr line) = version ∧ extractInt version.2 = status ∧
        0 < status.1 ∧
        head =
          { statusCode := status.1, version := version.1,
            reason := trimBlanks (status.2.getD []), headers := parseHeaderLines lines,
            contentLength := (parseHeaderLines lines).declaredLength } := by
  unfold parseResponseBlock at parse
  split at parse
  · simp at parse
  · simp at parse
  · rename_i line lines _ split
    refine ⟨line, lines, split, _, _, rfl, rfl, ?_⟩
    dsimp only at parse
    split at parse
    · simp at parse
    · rename_i positive
      simp only [Except.ok.injEq] at parse
      exact ⟨by omega, parse.symm⟩

theorem extractInt_le (text : Bytes) : (extractInt text).1 ≤ intMax := by
  have ordered : intMin ≤ intMax := by decide
  have nonnegative : 0 ≤ intMax := by decide
  simp only [extractInt]
  split
  · exact nonnegative
  · split_ifs <;> simp only <;> omega

end H1Codec

end ReverseProxy
