import ReverseProxy.Transport.Stream

/-!
# Body sources

The four kinds of `BodySource` (`codec/http_message.cpp`, and `ChunkedBodySource`
of `codec/h1_codec.cpp`) as state machines over the reads they make from their
stream.  `asyncReadSome` either answers at once or asks for a read of the
stream; `onRead` is the completion of that read, which again answers or asks for
another read.

`ChunkedBodySource::read_line_byte` captures its one-byte buffer by copy before
the read is started, so its callback examines a byte that the read never wrote.
That indeterminate byte is the argument `examined` of `onRead`.  The buffers of
`read_line_byte` and `read_exact` are arrays on their stack (`onStack`): a read that
fills its buffer only after `async_read_some` has returned writes to memory that is
no longer theirs.
-/

namespace ReverseProxy

open Text

/-- Where a chunked decoder waits for a read of its stream to complete. -/
inductive ChunkedWait where
  /-- `read_size_line`, on behalf of a consumer with a buffer of this capacity. -/
  | sizeLine (capacity : ℕ)
  | payload
  /-- `skip_crlf` with this many bytes to go, holding back the payload just read. -/
  | crlf (count : ℕ) (payload : Bytes)
  | trailer
  deriving DecidableEq, Repr

/--
Whether the read that is waited for was passed an array on the stack of the function that
started it; `read_chunk_payload` passes the consumer's buffer.
-/
def ChunkedWait.onStack : ChunkedWait → Bool
  | .payload => false
  | .sizeLine _ | .crlf _ _ | .trailer => true

/-- `ChunkedBodySource`, with the read that it waits for. -/
structure ChunkedBodySource where
  sizeLine : Bytes := []
  chunkRemaining : ℕ := 0
  finished : Bool := false
  wait : ChunkedWait := .payload
  deriving DecidableEq, Repr

/-- The kinds of `BodySource`. -/
inductive BodySource where
  /-- `StreamBodySource`: the next `remaining` bytes of the stream. -/
  | stream (remaining : ℕ)
  /-- `BufferBodySource`. -/
  | buffer (data : Bytes) (readPos : ℕ)
  /-- `StreamEofBodySource`: the stream up to its end. -/
  | streamEof
  | chunked (source : ChunkedBodySource)
  deriving DecidableEq, Repr

/-- What a body source does next: complete the consumer's read, or read its own stream. -/
inductive BodyStep where
  | deliver (result : ReadResult)
  | read (capacity : ℕ)
  deriving DecidableEq, Repr

namespace ChunkedBodySource

/-- The body is over, in order or not. -/
def finish (source : ChunkedBodySource) (result : ReadResult) :
    ChunkedBodySource × BodyStep :=
  ({ source with finished := true }, .deliver result)

/-- `read_chunk_payload`. -/
def readChunkPayload (source : ChunkedBodySource) (capacity : ℕ) :
    ChunkedBodySource × BodyStep :=
  ({ source with wait := .payload }, .read (min capacity source.chunkRemaining))

/-- `read_line`, which first clears the line. -/
def readLine (source : ChunkedBodySource) (wait : ChunkedWait) : ChunkedBodySource × BodyStep :=
  ({ source with sizeLine := [], wait }, .read 1)

/-- `async_read_some` goes on with the chunk, or with the next one. -/
def asyncReadSome (source : ChunkedBodySource) (capacity : ℕ) : ChunkedBodySource × BodyStep :=
  if source.finished then (source, .deliver (.ok []))
  else if source.chunkRemaining = 0 then source.readLine (.sizeLine capacity)
  else source.readChunkPayload capacity

/-- `size_line_` up to the chunk extensions. -/
def sizeField (line : Bytes) : Bytes :=
  match line.dropInfix? [59] with
  | some (size, _) => size
  | none => line

/-- The callback of `read_size_line` once the line is complete. -/
def onSizeLine (source : ChunkedBodySource) (capacity : ℕ) : ChunkedBodySource × BodyStep :=
  let source := { source with sizeLine := sizeField source.sizeLine }
  match strtoul 16 source.sizeLine with
  | none => source.finish (.error .invalidArgument)
  | some 0 => readLine { source with chunkRemaining := 0 } .trailer
  | some size => readChunkPayload { source with sizeLine := [], chunkRemaining := size } capacity

/-- The callback of `read_trailers` once a line is complete. -/
def onTrailer (source : ChunkedBodySource) : ChunkedBodySource × BodyStep :=
  if source.sizeLine = [] then source.finish (.ok []) else source.readLine .trailer

/-- `read_line_byte` examining a byte that does not end the line. -/
def pushLineByte (source : ChunkedBodySource) (examined : UInt8) :
    ChunkedBodySource × BodyStep :=
  ({ source with
      sizeLine := if examined = CR then source.sizeLine else source.sizeLine ++ [examined] },
    .read 1)

/-- The completion of a read of the stream, with the byte that a line reader examines. -/
def onRead (source : ChunkedBodySource) (examined : UInt8) (result : ReadResult) :
    ChunkedBodySource × BodyStep :=
  match source.wait, result with
  | .payload, .error ec => source.finish (.error ec)
  | _, .error _ => source.finish (.error .eof)
  | .payload, .ok data =>
    let source := { source with chunkRemaining := source.chunkRemaining - data.length }
    if source.chunkRemaining = 0 then
      ({ source with wait := .crlf 2 data }, .read 2)
    else (source, .deliver (.ok data))
  | _, .ok [] => source.finish (.error .eof)
  | .sizeLine capacity, .ok _ =>
    if examined = LF then source.onSizeLine capacity else source.pushLineByte examined
  | .trailer, .ok _ => if examined = LF then source.onTrailer else source.pushLineByte examined
  | .crlf count payload, .ok data =>
    if count ≤ data.length then (source, .deliver (.ok payload))
    else
      ({ source with wait := .crlf (count - data.length) payload },
        .read (min (count - data.length) 64))

end ChunkedBodySource

namespace BodySource

/-- `async_read_some` of a consumer with a buffer of the given capacity. -/
def asyncReadSome (capacity : ℕ) : BodySource → BodySource × BodyStep
  | .stream remaining =>
    if remaining = 0 then (.stream remaining, .deliver (.ok []))
    else (.stream remaining, .read (min capacity remaining))
  | .buffer data readPos =>
    let next := (data.drop readPos).take capacity
    (.buffer data (readPos + next.length), .deliver (.ok next))
  | .streamEof => (.streamEof, .read capacity)
  | .chunked source =>
    let step := source.asyncReadSome capacity
    (.chunked step.1, step.2)

/-- Whether the source passes an array on its stack to the read that it waits for. -/
def onStack : BodySource → Bool
  | .chunked source => source.wait.onStack
  | .stream _ | .buffer _ _ | .streamEof => false

/-- The completion of a read that the source made from its stream. -/
def onRead (examined : UInt8) (result : ReadResult) : BodySource → BodySource × BodyStep
  | .stream remaining =>
    match result with
    | .ok data => (.stream (remaining - data.length), .deliver (.ok (data.take remaining)))
    | .error ec => (.stream remaining, .deliver (.error ec))
  | .buffer data readPos => (.buffer data readPos, .deliver result)
  | .streamEof =>
    match result with
    | .error .eof => (.streamEof, .deliver (.ok []))
    | _ => (.streamEof, .deliver result)
  | .chunked source =>
    let step := source.onRead examined result
    (.chunked step.1, step.2)

end BodySource

/-- What the callback of `async_parse_request` receives (`codec/icodec.h`). -/
structure ParsedRequest where
  head : HttpRequestHead
  body : Option BodySource
  keepAlive : Bool
  deriving DecidableEq, Repr

/-- What the callback of `async_parse_response` receives. -/
structure ParsedResponse where
  head : HttpResponseHead
  body : Option BodySource
  keepAlive : Bool
  deriving DecidableEq, Repr

/-- The part of a parsed request that is known without reading on. -/
def ParsedRequest.announced (parsed : ParsedRequest) : HttpRequestHead × Bool :=
  (parsed.head, parsed.keepAlive)

/-- The part of a parsed response that is known without reading on. -/
def ParsedResponse.announced (parsed : ParsedResponse) : HttpResponseHead × Bool :=
  (parsed.head, parsed.keepAlive)

/-! ## What is left to be read -/

/-- What a body source of known length has still to read from its stream. -/
def leftToRead : Option BodySource → Option ℕ
  | none => some 0
  | some (.stream remaining) => some remaining
  | some (.buffer _ _) => some 0
  | some .streamEof | some (.chunked _) => none

theorem leftToRead_asyncReadSome {source : BodySource} {left : ℕ}
    (isLeft : leftToRead (some source) = some left) (capacity : ℕ) :
    leftToRead (some (source.asyncReadSome capacity).1) = some left ∧
      (∀ ec, (source.asyncReadSome capacity).2 ≠ .deliver (.error ec)) ∧
      ((source.asyncReadSome capacity).2 = .deliver (.ok []) → left = 0) := by
  cases source with
  | stream remaining =>
    simp only [leftToRead, Option.some.injEq] at isLeft
    subst isLeft
    by_cases none : remaining = 0
    · simp [BodySource.asyncReadSome, none, leftToRead]
    · simp [BodySource.asyncReadSome, none, leftToRead]
  | buffer data readPos =>
    simp only [leftToRead, Option.some.injEq] at isLeft
    simp [BodySource.asyncReadSome, leftToRead, isLeft]
  | streamEof => simp [leftToRead] at isLeft
  | chunked source => simp [leftToRead] at isLeft

theorem leftToRead_onRead {source : BodySource} {left : ℕ}
    (isLeft : leftToRead (some source) = some left) (examined : UInt8) {data : Bytes}
    (nonempty : data ≠ []) :
    leftToRead (some (source.onRead examined (.ok data)).1) = some (left - data.length) ∧
      (∀ ec, (source.onRead examined (.ok data)).2 ≠ .deliver (.error ec)) ∧
      ((source.onRead examined (.ok data)).2 = .deliver (.ok []) → left = 0) := by
  cases source with
  | stream remaining =>
    simp only [leftToRead, Option.some.injEq] at isLeft
    subst isLeft
    simp [BodySource.onRead, leftToRead, nonempty]
  | buffer buffered readPos =>
    simp only [leftToRead, Option.some.injEq] at isLeft
    subst isLeft
    simp [BodySource.onRead, leftToRead, nonempty]
  | streamEof => simp [leftToRead] at isLeft
  | chunked source => simp [leftToRead] at isLeft

end ReverseProxy
