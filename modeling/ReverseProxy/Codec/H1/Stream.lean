import ReverseProxy.Codec.H1.Message

/-!
# Reading HTTP/1.1 heads from a stream

`H1Codec::read_header_block` and `read_response_header` read the stream into a
growing buffer until it contains CRLFCRLF, then parse the block and choose a body
source.  Both run the same loop, `readBlock`, with a different final step.

The outcome of the loop is described by `readBlock_of_found` and
`readBlock_of_missing` in terms of the whole byte stream: the block is the part up
to the first CRLFCRLF wherever the reads cut the stream, and only the bytes that
were read together with it depend on the segmentation.
-/

namespace ReverseProxy

open Text

namespace H1Codec

/-- The end of a header block. -/
def crlfcrlf : Bytes := ascii "\r\n\r\n"

/-- The size of the buffer that a header read fills. -/
def readSize : ℕ := 4096

theorem readSize_pos : 0 < readSize := by decide

/-- The state of the header loop after a read. -/
inductive Progress (α : Type) where
  | more (buf : Bytes)
  | failed (ec : ErrorCode)
  | complete (result : α)
  deriving DecidableEq, Repr

/--
The completion of one header read.  `finish` is what the codec makes of a
complete block and of the bytes that were read past it.
-/
def onBlockRead {α : Type} (finish : Bytes → Bytes → Except ErrorCode α) (buf : Bytes) :
    ReadResult → Progress α
  | .error ec => .failed ec
  | .ok [] => .failed .eof
  | .ok data =>
    match (buf ++ data).dropInfix? crlfcrlf with
    | none => .more (buf ++ data)
    | some (block, bodyPrefix) =>
      match finish (block ++ crlfcrlf) bodyPrefix with
      | .ok result => .complete result
      | .error ec => .failed ec

theorem onBlockRead_eq_more {α : Type} {finish : Bytes → Bytes → Except ErrorCode α}
    {buf buf' : Bytes} {result : ReadResult}
    (continues : onBlockRead finish buf result = .more buf') :
    ∃ data, result = .ok data ∧ buf' = buf ++ data := by
  unfold onBlockRead at continues
  split at continues
  · simp at continues
  · simp at continues
  · rename_i data nonempty
    split at continues
    · simp only [Progress.more.injEq] at continues
      exact ⟨data, rfl, continues.symm⟩
    · split at continues <;> simp at continues

theorem onBlockRead_eq_complete {α : Type} {finish : Bytes → Bytes → Except ErrorCode α}
    {buf : Bytes} {result : ReadResult} {parsed : α}
    (completes : onBlockRead finish buf result = .complete parsed) :
    ∃ data block bodyPrefix, result = .ok data ∧
      (buf ++ data).dropInfix? crlfcrlf = some (block, bodyPrefix) ∧
      finish (block ++ crlfcrlf) bodyPrefix = .ok parsed := by
  unfold onBlockRead at completes
  split at completes
  · simp at completes
  · simp at completes
  · rename_i data nonempty
    split at completes
    · simp at completes
    · rename_i block bodyPrefix found
      split at completes
      · rename_i finished
        simp only [Progress.complete.injEq] at completes
        subst completes
        exact ⟨data, block, bodyPrefix, rfl, found, finished⟩
      · simp at completes

/-- What `read_header_block` makes of a complete header block. -/
def finishRequest (raw bodyPrefix : Bytes) : Except ErrorCode ParsedRequest :=
  match parseHeaderBlock raw with
  | .error _ => .error .invalidArgument
  | .ok head =>
    .ok
      { head, body := requestBody head bodyPrefix,
        keepAlive := computeKeepAlive head.headers head.version }

/-- What `read_response_header` makes of a complete header block. -/
def finishResponse (raw bodyPrefix : Bytes) : Except ErrorCode ParsedResponse :=
  match parseResponseBlock raw with
  | .error _ => .error .invalidArgument
  | .ok head =>
    let body := responseBody head bodyPrefix
    .ok
      { head, body := body.1,
        keepAlive := !body.2 && computeKeepAlive head.headers head.version }

/-- The header loop over a stream. -/
def readBlock {α : Type} (finish : Bytes → Bytes → Except ErrorCode α) (buf : Bytes)
    (stream : InStream) : Except ErrorCode α × InStream :=
  match _read : stream.readSome readSize with
  | (.error ec, rest) => (.error ec, rest)
  | (.ok [], rest) => (.error .eof, rest)
  | (.ok (byte :: data), rest) =>
    match onBlockRead finish buf (.ok (byte :: data)) with
    | .failed ec => (.error ec, rest)
    | .complete result => (.ok result, rest)
    | .more buf => readBlock finish buf rest
termination_by stream.bytes.length
decreasing_by exact InStream.length_lt_of_readSome _read (by simp [ReadResult.data])

/-- `read_header_block`. -/
def readHeaderBlock (buf : Bytes) (stream : InStream) :
    Except ErrorCode ParsedRequest × InStream :=
  readBlock finishRequest buf stream

/-- `read_response_header`. -/
def readResponseHeader (buf : Bytes) (stream : InStream) :
    Except ErrorCode ParsedResponse × InStream :=
  readBlock finishResponse buf stream

/-- `async_parse_request`. -/
def asyncParseRequest (stream : InStream) : Except ErrorCode ParsedRequest × InStream :=
  readHeaderBlock [] stream

/-- `async_parse_response`. -/
def asyncParseResponse (stream : InStream) : Except ErrorCode ParsedResponse × InStream :=
  readResponseHeader [] stream

/-- How many bytes past a header block of the given length the header reads return. -/
def overread (stream : InStream) (blockLength : ℕ) : ℕ :=
  stream.bytesReadTo readSize blockLength - blockLength

section Outcome

variable {α : Type} (finish : Bytes → Bytes → Except ErrorCode α)

theorem readBlock_cons (buf : Bytes) (segment : Segment) (later : List Segment)
    (ending : StreamEnd) :
    ∃ data rest, InStream.readSome readSize ⟨segment :: later, ending⟩ = (.ok data, rest) ∧
      data ≠ [] ∧ rest.ending = ending ∧
      data ++ rest.bytes = InStream.bytes ⟨segment :: later, ending⟩ ∧
      readBlock finish buf ⟨segment :: later, ending⟩ =
        match (buf ++ data).dropInfix? crlfcrlf with
        | none => readBlock finish (buf ++ data) rest
        | some (block, bodyPrefix) => (finish (block ++ crlfcrlf) bodyPrefix, rest) := by
  obtain ⟨data, rest, read, nonempty, -, sameEnd, same⟩ :=
    InStream.readSome_cons readSize_pos segment later ending
  refine ⟨data, rest, read, nonempty, sameEnd, same, ?_⟩
  obtain ⟨byte, data, rfl⟩ := List.exists_cons_of_ne_nil nonempty
  rw [readBlock]
  split
  · simp_all
  · simp_all
  · rename_i byte' data' rest' read'
    rw [read] at read'
    simp only [Prod.mk.injEq, ReadResult.ok.injEq, List.cons.injEq] at read'
    obtain ⟨⟨rfl, rfl⟩, rfl⟩ := read'
    simp only [onBlockRead]
    cases (buf ++ byte :: data).dropInfix? crlfcrlf with
    | none => rfl
    | some cut => cases finished : finish (cut.1 ++ crlfcrlf) cut.2 <;> simp [finished]

/-- Without a CRLFCRLF in the stream the loop reads everything and reports how it ended. -/
theorem readBlock_of_missing (buf : Bytes) (stream : InStream)
    (missing : (buf ++ stream.bytes).dropInfix? crlfcrlf = none) :
    readBlock finish buf stream = (.error stream.ending.errorCode, ⟨[], stream.ending⟩) := by
  induction size : stream.bytes.length using Nat.strong_induction_on generalizing buf stream with
  | _ size ih =>
    obtain ⟨segments, ending⟩ := stream
    cases segments with
    | nil =>
      rw [readBlock]
      cases ending <;> simp [InStream.readSome, StreamEnd.result, StreamEnd.errorCode]
    | cons segment later =>
      obtain ⟨data, rest, read, nonempty, sameEnd, same, round⟩ :=
        readBlock_cons finish buf segment later ending
      rw [← same, ← List.append_assoc] at missing
      have fewer := InStream.length_lt_of_readSome read nonempty
      rw [round, dropInfix?_eq_none_of_append missing]
      simpa [sameEnd] using ih _ (size ▸ fewer) (buf ++ data) rest missing rfl

/--
With a CRLFCRLF in the stream, the loop completes the block up to the first one.
Reads that reached past it have taken `bodyPrefix` off the stream as well.
-/
theorem readBlock_of_found (buf : Bytes) (stream : InStream) {block after : Bytes}
    (fresh : buf.dropInfix? crlfcrlf = none)
    (found : (buf ++ stream.bytes).dropInfix? crlfcrlf = some (block, after)) :
    ∃ bodyPrefix rest,
      readBlock finish buf stream = (finish (block ++ crlfcrlf) bodyPrefix, rest) ∧
        bodyPrefix ++ rest.bytes = after ∧ rest.ending = stream.ending ∧
        buf.length + stream.bytesReadTo readSize ((block ++ crlfcrlf).length - buf.length) =
          (block ++ crlfcrlf ++ bodyPrefix).length := by
  induction size : stream.bytes.length using Nat.strong_induction_on generalizing buf stream with
  | _ size ih =>
    obtain ⟨segments, ending⟩ := stream
    cases segments with
    | nil => simp [fresh] at found
    | cons segment later =>
      obtain ⟨data, rest, read, nonempty, sameEnd, same, round⟩ :=
        readBlock_cons finish buf segment later ending
      have split := eq_of_dropInfix? found
      have needed : 0 < (block ++ crlfcrlf).length - buf.length := by
        by_contra enough
        obtain ⟨after', earlier⟩ := split_of_append_split split (by omega)
        exact dropInfix?_eq_none_iff.mp fresh ⟨block, after', earlier.symm⟩
      have reached := InStream.bytesReadTo_of_read needed readSize_pos read nonempty
      rw [← same, ← List.append_assoc] at found
      cases inside : (buf ++ data).dropInfix? crlfcrlf with
      | none =>
        have fewer := InStream.length_lt_of_readSome read nonempty
        obtain ⟨bodyPrefix, rest', outcome, sameAfter, sameEnd', stop⟩ :=
          ih _ (size ▸ fewer) (buf ++ data) rest inside found rfl
        refine ⟨bodyPrefix, rest', ?_, sameAfter, sameEnd'.trans sameEnd, ?_⟩
        · rw [round, inside]
          exact outcome
        · rw [reached]
          simp only [List.length_append, Nat.sub_sub] at stop ⊢
          omega
      | some cut =>
        obtain ⟨block', bodyPrefix⟩ := cut
        have later := dropInfix?_append inside rest.bytes
        rw [found, Option.some.injEq, Prod.mk.injEq] at later
        obtain ⟨rfl, rfl⟩ := later
        have whole := congrArg List.length (eq_of_dropInfix? inside)
        refine ⟨bodyPrefix, rest, ?_, rfl, sameEnd, ?_⟩
        · rw [round, inside]
        · have done : (block ++ crlfcrlf).length - buf.length - data.length = 0 := by
            simp only [List.length_append] at whole ⊢
            omega
          rw [reached, done, InStream.bytesReadTo_zero]
          simp only [List.length_append] at whole ⊢
          omega

theorem readBlock_of_cut (stream : InStream) {block after : Bytes}
    (found : stream.bytes.dropInfix? crlfcrlf = some (block, after)) :
    ∃ bodyPrefix rest,
      readBlock finish [] stream = (finish (block ++ crlfcrlf) bodyPrefix, rest) ∧
        bodyPrefix ++ rest.bytes = after ∧ rest.ending = stream.ending ∧
        overread stream (block ++ crlfcrlf).length = bodyPrefix.length := by
  obtain ⟨bodyPrefix, rest, outcome, sameAfter, sameEnd, reached⟩ :=
    readBlock_of_found finish [] stream (by decide) (by simpa using found)
  refine ⟨bodyPrefix, rest, outcome, sameAfter, sameEnd, ?_⟩
  simp only [List.length_nil, Nat.sub_zero, Nat.zero_add] at reached
  rw [overread, reached, List.length_append, Nat.add_sub_cancel_left]

/-- A successful loop has found a block that its last step accepts. -/
theorem readBlock_eq_ok {stream rest : InStream} {result : α}
    (parse : readBlock finish [] stream = (.ok result, rest)) :
    ∃ block bodyPrefix,
      stream.bytes.dropInfix? crlfcrlf = some (block, bodyPrefix ++ rest.bytes) ∧
        finish (block ++ crlfcrlf) bodyPrefix = .ok result ∧ rest.ending = stream.ending ∧
        overread stream (block ++ crlfcrlf).length = bodyPrefix.length := by
  cases found : stream.bytes.dropInfix? crlfcrlf with
  | none =>
    rw [readBlock_of_missing finish [] stream (by simpa using found)] at parse
    simp at parse
  | some cut =>
    obtain ⟨block, after⟩ := cut
    obtain ⟨bodyPrefix, rest', outcome, rfl, sameEnd, reached⟩ :=
      readBlock_of_cut finish stream found
    rw [outcome, Prod.mk.injEq] at parse
    obtain ⟨finished, rfl⟩ := parse
    exact ⟨block, bodyPrefix, rfl, finished, sameEnd, reached⟩

end Outcome

theorem asyncParseRequest_of_cut (stream : InStream) {block after : Bytes}
    (found : stream.bytes.dropInfix? crlfcrlf = some (block, after)) {head : HttpRequestHead}
    (blockParse : parseHeaderBlock (block ++ crlfcrlf) = .ok head) :
    ∃ bodyPrefix rest,
      asyncParseRequest stream =
          (.ok ⟨head, requestBody head bodyPrefix, computeKeepAlive head.headers head.version⟩,
            rest) ∧
        bodyPrefix ++ rest.bytes = after ∧
        overread stream (block ++ crlfcrlf).length = bodyPrefix.length := by
  obtain ⟨bodyPrefix, rest, outcome, sameAfter, -, reached⟩ :=
    readBlock_of_cut finishRequest stream found
  refine ⟨bodyPrefix, rest, ?_, sameAfter, reached⟩
  rw [asyncParseRequest, readHeaderBlock, outcome, finishRequest, blockParse]

theorem asyncParseResponse_of_cut (stream : InStream) {block after : Bytes}
    (found : stream.bytes.dropInfix? crlfcrlf = some (block, after)) {head : HttpResponseHead}
    (blockParse : parseResponseBlock (block ++ crlfcrlf) = .ok head) :
    ∃ bodyPrefix rest,
      asyncParseResponse stream =
          (.ok ⟨head, (responseBody head bodyPrefix).1, !(responseBody head bodyPrefix).2 &&
            computeKeepAlive head.headers head.version⟩, rest) ∧
        bodyPrefix ++ rest.bytes = after ∧
        overread stream (block ++ crlfcrlf).length = bodyPrefix.length := by
  obtain ⟨bodyPrefix, rest, outcome, sameAfter, -, reached⟩ :=
    readBlock_of_cut finishResponse stream found
  refine ⟨bodyPrefix, rest, ?_, sameAfter, reached⟩
  rw [asyncParseResponse, readResponseHeader, outcome, finishResponse, blockParse]

theorem asyncParseRequest_eq_ok {stream rest : InStream} {parsed : ParsedRequest}
    (parse : asyncParseRequest stream = (.ok parsed, rest)) :
    ∃ block bodyPrefix,
      stream.bytes.dropInfix? crlfcrlf = some (block, bodyPrefix ++ rest.bytes) ∧
        parseHeaderBlock (block ++ crlfcrlf) = .ok parsed.head ∧
        parsed.body = requestBody parsed.head bodyPrefix ∧
        parsed.keepAlive = computeKeepAlive parsed.head.headers parsed.head.version ∧
        rest.ending = stream.ending ∧
        overread stream (block ++ crlfcrlf).length = bodyPrefix.length := by
  obtain ⟨block, bodyPrefix, found, finished, sameEnd, reached⟩ :=
    readBlock_eq_ok finishRequest parse
  refine ⟨block, bodyPrefix, found, ?_⟩
  unfold finishRequest at finished
  cases blockParse : parseHeaderBlock (block ++ crlfcrlf) with
  | error message => simp [blockParse] at finished
  | ok head =>
    simp only [blockParse, Except.ok.injEq] at finished
    subst finished
    exact ⟨rfl, rfl, rfl, sameEnd, reached⟩

end H1Codec

end ReverseProxy
