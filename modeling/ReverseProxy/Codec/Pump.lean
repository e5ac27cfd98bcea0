import ReverseProxy.Codec.BodySource

/-!
# Pumping a body

`pump_body_to_stream` reads a body source until it reports the end or an error,
and writes every piece it gets.  This file runs the body sources over a stream
and describes what the pump delivers from each kind of source in terms of the
bytes of the stream.

The indeterminate bytes that a chunked decoder examines are supplied by a
function of the number of bytes left in the stream, so every line byte has its
own.
-/

namespace ReverseProxy

open Text

namespace BodySource

/-- Bytes that a source holds itself and has not handed out. -/
def held : BodySource → ℕ
  | .buffer data readPos => data.length - readPos
  | _ => 0

/-- How often a source may ask again after a read that returned nothing. -/
def patience : BodySource → ℕ
  | .chunked source => if source.wait = .payload then 1 else 0
  | _ => 0

/-- After a read that returned nothing, a source delivers nothing or loses patience. -/
theorem onRead_of_nothing (source : BodySource) (examined : UInt8) {result : ReadResult}
    (nothing : result.data = []) :
    (∃ source' result', source.onRead examined result = (source', .deliver result') ∧
        result'.data = []) ∨
      ∃ source' capacity, source.onRead examined result = (source', .read capacity) ∧
        source'.patience < source.patience := by
  cases result with
  | error ec =>
    left
    cases source with
    | stream remaining => exact ⟨_, _, rfl, rfl⟩
    | buffer data readPos => exact ⟨_, _, rfl, rfl⟩
    | streamEof => cases ec <;> exact ⟨_, _, rfl, rfl⟩
    | chunked source =>
      simp only [onRead, ChunkedBodySource.onRead]
      cases source.wait <;> exact ⟨_, _, rfl, rfl⟩
  | ok data =>
    obtain rfl : data = [] := nothing
    cases source with
    | stream remaining => exact .inl ⟨_, _, rfl, by simp [ReadResult.data]⟩
    | buffer data readPos => exact .inl ⟨_, _, rfl, rfl⟩
    | streamEof => exact .inl ⟨_, _, rfl, rfl⟩
    | chunked source =>
      obtain ⟨sizeLine, chunkRemaining, finished, wait⟩ := source
      cases wait with
      | payload =>
        by_cases complete : chunkRemaining = 0
        · right
          simp only [onRead, ChunkedBodySource.onRead, complete]
          exact ⟨_, _, rfl, by simp [patience]⟩
        · left
          simp only [onRead, ChunkedBodySource.onRead, List.length_nil, Nat.sub_zero, complete]
          exact ⟨_, _, rfl, rfl⟩
      | sizeLine capacity => exact .inl ⟨_, _, rfl, rfl⟩
      | crlf count payload => exact .inl ⟨_, _, rfl, rfl⟩
      | trailer => exact .inl ⟨_, _, rfl, rfl⟩

theorem patience_le (source : BodySource) : source.patience ≤ 1 := by
  cases source <;> simp only [patience]
  · omega
  · omega
  · omega
  · split <;> omega

variable {source source' : BodySource}

/-- A source that asks for another read has come closer to the end of its stream. -/
theorem measure_of_asks {examined : UInt8} {stream : InStream} {capacity capacity' : ℕ}
    (asks : source.onRead examined (stream.readSome capacity).1 = (source', .read capacity')) :
    2 * (stream.readSome capacity).2.bytes.length + source'.patience <
      2 * stream.bytes.length + source.patience := by
  by_cases nothing : (stream.readSome capacity).1.data = []
  · have shorter : (stream.readSome capacity).2.bytes.length ≤ stream.bytes.length :=
      InStream.length_le_of_readSome rfl
    rcases onRead_of_nothing source examined nothing with
      ⟨_, _, delivers, -⟩ | ⟨_, _, again, less⟩
    · simp [asks] at delivers
    · simp only [asks, Prod.mk.injEq] at again
      obtain ⟨rfl, -⟩ := again
      omega
  · have shorter : (stream.readSome capacity).2.bytes.length < stream.bytes.length :=
      InStream.length_lt_of_readSome rfl nothing
    have := patience_le source'
    omega

/-- The reads that a source makes until it can complete its consumer's read. -/
def fetch (examined : ℕ → UInt8) (source : BodySource) (capacity : ℕ) (stream : InStream) :
    BodySource × ReadResult × InStream :=
  let rest := (stream.readSome capacity).2
  match _asks : source.onRead (examined rest.bytes.length) (stream.readSome capacity).1 with
  | (source, .deliver result) => (source, result, rest)
  | (source, .read capacity) => fetch examined source capacity rest
termination_by 2 * stream.bytes.length + source.patience
decreasing_by exact measure_of_asks _asks

/-- `async_read_some` of a consumer, with the reads of the stream that it leads to. -/
def readSome (examined : ℕ → UInt8) (capacity : ℕ) (source : BodySource) (stream : InStream) :
    BodySource × ReadResult × InStream :=
  match source.asyncReadSome capacity with
  | (source, .deliver result) => (source, result, stream)
  | (source, .read capacity) => source.fetch examined capacity stream

/-- A read of the stream that has delivered something. -/
structure StreamRead where
  /-- Whether the buffer was on the stack of the source. -/
  onStack : Bool
  /-- How many bytes of the stream are left behind it. -/
  left : ℕ
  deriving DecidableEq

/-- The read that `fetch` makes first, unless it delivers nothing. -/
def firstRead (source : BodySource) (capacity : ℕ) (stream : InStream) : List StreamRead :=
  if (stream.readSome capacity).1.data = [] then []
  else [⟨source.onStack, (stream.readSome capacity).2.bytes.length⟩]

/-- The reads that `fetch` makes. -/
def fetchReads (examined : ℕ → UInt8) (source : BodySource) (capacity : ℕ) (stream : InStream) :
    List StreamRead :=
  let rest := (stream.readSome capacity).2
  match _asks : source.onRead (examined rest.bytes.length) (stream.readSome capacity).1 with
  | (_, .deliver _) => source.firstRead capacity stream
  | (source', .read capacity') =>
    source.firstRead capacity stream ++ fetchReads examined source' capacity' rest
termination_by 2 * stream.bytes.length + source.patience
decreasing_by exact measure_of_asks _asks

/-- The reads that `readSome` makes. -/
def readReads (examined : ℕ → UInt8) (capacity : ℕ) (source : BodySource) (stream : InStream) :
    List StreamRead :=
  match source.asyncReadSome capacity with
  | (_, .deliver _) => []
  | (source, .read capacity) => source.fetchReads examined capacity stream

theorem fetch_of_deliver {examined : ℕ → UInt8} {capacity : ℕ} {stream rest : InStream}
    {result result' : ReadResult} (read : stream.readSome capacity = (result, rest))
    (delivers : source.onRead (examined rest.bytes.length) result = (source', .deliver result')) :
    source.fetch examined capacity stream = (source', result', rest) := by
  rw [fetch]
  simp only [read]
  split
  · simp_all
  · simp_all

@[simp]
theorem held_onRead (source : BodySource) (examined : UInt8) (result : ReadResult) :
    (source.onRead examined result).1.held = source.held := by
  cases source with
  | stream remaining => cases result <;> rfl
  | buffer data readPos => rfl
  | streamEof =>
    simp only [onRead]
    split <;> rfl
  | chunked source => rfl

theorem held_fetch (examined : ℕ → UInt8) (source : BodySource) (capacity : ℕ)
    (stream : InStream) : (source.fetch examined capacity stream).1.held = source.held := by
  fun_induction fetch examined source capacity stream with
  | case1 source capacity stream rest source' result delivers =>
    rw [← held_onRead source _ _, delivers]
  | case2 source capacity stream rest source' capacity' asks ih =>
    rw [ih, ← held_onRead source _ _, asks]

/-- A source that delivers some bytes has taken some off its stream. -/
theorem length_fetch (examined : ℕ → UInt8) (source : BodySource) (capacity : ℕ)
    (stream : InStream) :
    (source.fetch examined capacity stream).2.2.bytes.length ≤ stream.bytes.length ∧
      ((source.fetch examined capacity stream).2.1.data ≠ [] →
        (source.fetch examined capacity stream).2.2.bytes.length < stream.bytes.length) := by
  fun_induction fetch examined source capacity stream with
  | case1 source capacity stream rest source' result delivers =>
    have read : stream.readSome capacity = ((stream.readSome capacity).1, rest) := rfl
    refine ⟨InStream.length_le_of_readSome read, fun delivered => ?_⟩
    refine InStream.length_lt_of_readSome read fun nothing => ?_
    rcases onRead_of_nothing source (examined rest.bytes.length) nothing with
      ⟨_, _, same, empty⟩ | ⟨_, _, again, -⟩
    · simp only [delivers, Prod.mk.injEq, BodyStep.deliver.injEq] at same
      obtain ⟨-, rfl⟩ := same
      exact delivered empty
    · simp [delivers] at again
  | case2 source capacity stream rest source' capacity' asks ih =>
    have shorter : rest.bytes.length ≤ stream.bytes.length :=
      InStream.length_le_of_readSome rfl
    exact ⟨ih.1.trans shorter, fun delivered => (ih.2 delivered).trans_le shorter⟩

/-- Only a buffer delivers without a read, and what it delivers is no longer held. -/
theorem held_lt_of_deliver {capacity : ℕ} {result : ReadResult}
    (asked : source.asyncReadSome capacity = (source', .deliver result))
    (delivered : result.data ≠ []) : source'.held < source.held := by
  cases source with
  | stream remaining =>
    simp only [asyncReadSome] at asked
    split at asked
    · simp only [Prod.mk.injEq, BodyStep.deliver.injEq] at asked
      exact absurd (by rw [← asked.2]; rfl) delivered
    · simp at asked
  | buffer data readPos =>
    simp only [asyncReadSome, Prod.mk.injEq, BodyStep.deliver.injEq] at asked
    obtain ⟨rfl, rfl⟩ := asked
    have := List.length_pos_iff.mpr delivered
    simp only [ReadResult.data, List.length_take, List.length_drop] at this
    simp only [held, List.length_take, List.length_drop]
    omega
  | streamEof => simp [asyncReadSome] at asked
  | chunked source =>
    simp only [asyncReadSome, ChunkedBodySource.asyncReadSome] at asked
    split at asked
    · simp only [Prod.mk.injEq, BodyStep.deliver.injEq] at asked
      exact absurd (by rw [← asked.2]; rfl) delivered
    · split at asked <;>
        simp [ChunkedBodySource.readLine, ChunkedBodySource.readChunkPayload] at asked

theorem held_of_asks {capacity capacity' : ℕ}
    (asked : source.asyncReadSome capacity = (source', .read capacity')) :
    source'.held = source.held := by
  cases source with
  | stream remaining =>
    simp only [asyncReadSome] at asked
    split at asked
    · simp at asked
    · simp only [Prod.mk.injEq] at asked
      rw [← asked.1]
  | buffer data readPos => simp [asyncReadSome] at asked
  | streamEof =>
    simp only [asyncReadSome, Prod.mk.injEq] at asked
    rw [← asked.1]
  | chunked source =>
    simp only [asyncReadSome, Prod.mk.injEq] at asked
    rw [← asked.1]
    rfl

/-- Every piece that a source delivers is taken off its stream or off what it holds. -/
theorem measure_readSome {examined : ℕ → UInt8} {capacity : ℕ} {stream rest : InStream}
    {result : ReadResult}
    (read : source.readSome examined capacity stream = (source', result, rest))
    (delivered : result.data ≠ []) :
    source'.held + rest.bytes.length < source.held + stream.bytes.length := by
  unfold readSome at read
  split at read
  · rename_i source'' result' asked
    simp only [Prod.mk.injEq] at read
    obtain ⟨rfl, rfl, rfl⟩ := read
    have := held_lt_of_deliver asked delivered
    omega
  · rename_i source'' capacity' asked
    have asker := held_of_asks asked
    have kept := held_fetch examined source'' capacity' stream
    have taken := (length_fetch examined source'' capacity' stream).2
    rw [read] at kept taken
    have := taken delivered
    simp only at kept this
    omega

end BodySource

/-- The size of the buffer that the pump reads a body into. -/
def pumpSize : ℕ := 8192

/-- What a completed pump has written, the error it reports, and what it left unread. -/
structure Pumped where
  written : Bytes
  outcome : Option ErrorCode
  rest : InStream

/-- `pump_body_to_stream`, every write of which succeeds. -/
def pumpBodyToStream (examined : ℕ → UInt8) (body : BodySource) (stream : InStream) : Pumped :=
  match _read : body.readSome examined pumpSize stream with
  | (body, .ok (byte :: data), rest) =>
    let more := pumpBodyToStream examined body rest
    { more with written := byte :: data ++ more.written }
  | (_, .ok [], rest) => ⟨[], none, rest⟩
  | (_, .error ec, rest) => ⟨[], some ec, rest⟩
termination_by body.held + stream.bytes.length
decreasing_by exact BodySource.measure_readSome _read (by simp [ReadResult.data])

/-- What a writer does about the body behind a head that it has written. -/
def pumpBody (examined : ℕ → UInt8) : Option BodySource → InStream → Pumped
  | none, stream => ⟨[], none, stream⟩
  | some body, stream => pumpBodyToStream examined body stream

section Steps

variable {examined : ℕ → UInt8} {body body' : BodySource} {stream rest : InStream}

theorem pump_of_piece {data : Bytes}
    (read : body.readSome examined pumpSize stream = (body', .ok data, rest))
    (nonempty : data ≠ []) :
    pumpBodyToStream examined body stream =
      { pumpBodyToStream examined body' rest with
        written := data ++ (pumpBodyToStream examined body' rest).written } := by
  obtain ⟨byte, data, rfl⟩ := List.exists_cons_of_ne_nil nonempty
  rw [pumpBodyToStream]
  split <;> simp_all

theorem pump_of_end (read : body.readSome examined pumpSize stream = (body', .ok [], rest)) :
    pumpBodyToStream examined body stream = ⟨[], none, rest⟩ := by
  rw [pumpBodyToStream]
  split <;> simp_all

theorem pump_of_error {ec : ErrorCode}
    (read : body.readSome examined pumpSize stream = (body', .error ec, rest)) :
    pumpBodyToStream examined body stream = ⟨[], some ec, rest⟩ := by
  rw [pumpBodyToStream]
  split <;> simp_all

end Steps

theorem pump_buffer (examined : ℕ → UInt8) (data : Bytes) (readPos : ℕ) (stream : InStream) :
    pumpBodyToStream examined (.buffer data readPos) stream =
      ⟨data.drop readPos, none, stream⟩ := by
  induction sameSize : data.length - readPos using Nat.strong_induction_on generalizing readPos with
  | _ size ih =>
    have read : BodySource.readSome examined pumpSize (.buffer data readPos) stream =
        (.buffer data (readPos + ((data.drop readPos).take pumpSize).length),
          .ok ((data.drop readPos).take pumpSize), stream) := rfl
    by_cases exhausted : data.drop readPos = []
    · rw [exhausted] at read ⊢
      exact pump_of_end read
    · have some : (data.drop readPos).take pumpSize ≠ [] := by
        simp [pumpSize, exhausted]
      have advanced := List.length_pos_iff.mpr some
      have left := List.length_pos_iff.mpr exhausted
      rw [List.length_drop] at left
      rw [pump_of_piece read some, ih _ (by omega) _ rfl, ← List.drop_drop,
        List.prefix_iff_eq_append.mp (List.take_prefix _ _)]

/-- The error that a pump reports when its stream ends in the middle of a body. -/
def StreamEnd.outcome : StreamEnd → Option ErrorCode
  | .fin => none
  | .error ec => some ec

/-- At its end the stream says how a body of known length ends. -/
theorem readSome_stream_of_nil (examined : ℕ → UInt8) {remaining : ℕ} (unfinished : remaining ≠ 0)
    (ending : StreamEnd) :
    BodySource.readSome examined pumpSize (.stream remaining) ⟨[], ending⟩ =
      (.stream remaining, ending.result, ⟨[], ending⟩) := by
  have asks : BodySource.readSome examined pumpSize (.stream remaining) ⟨[], ending⟩ =
      BodySource.fetch examined (.stream remaining) (min pumpSize remaining) ⟨[], ending⟩ := by
    simp [BodySource.readSome, BodySource.asyncReadSome, unfinished]
  rw [asks]
  apply BodySource.fetch_of_deliver (InStream.readSome_nil _ _)
  cases ending with
  | fin => simp [BodySource.onRead, StreamEnd.result]
  | error ec => simp [BodySource.onRead, StreamEnd.result]

/-- Before that a piece is delivered, no longer than what remains. -/
theorem exists_readSome_stream (examined : ℕ → UInt8) {remaining : ℕ} (unfinished : remaining ≠ 0)
    (segment : Segment) (later : List Segment) (ending : StreamEnd) :
    ∃ data rest, BodySource.readSome examined pumpSize (.stream remaining)
        ⟨segment :: later, ending⟩ = (.stream (remaining - data.length), .ok data, rest) ∧
      data ≠ [] ∧ data.length ≤ remaining ∧ rest.ending = ending ∧
      data ++ rest.bytes = InStream.bytes ⟨segment :: later, ending⟩ := by
  have positive : 0 < min pumpSize remaining := by
    have : 0 < pumpSize := by decide
    omega
  rcases InStream.readSome_cons positive segment later ending with
    ⟨data, rest, read, nonempty, fits, sameEnd, same⟩
  have whole : data.take remaining = data := List.take_of_length_le (by omega)
  refine ⟨data, rest, ?_, nonempty, by omega, sameEnd, by rw [same, InStream.bytes_cons]⟩
  have asks : BodySource.readSome examined pumpSize (.stream remaining)
      ⟨segment :: later, ending⟩ =
        BodySource.fetch examined (.stream remaining) (min pumpSize remaining)
          ⟨segment :: later, ending⟩ := by
    simp [BodySource.readSome, BodySource.asyncReadSome, unfinished]
  rw [asks]
  exact BodySource.fetch_of_deliver read (by simp [BodySource.onRead, whole])

/-- The pump writes the next `remaining` bytes of the stream, as far as there are any. -/
theorem pump_stream (examined : ℕ → UInt8) (remaining : ℕ) (stream : InStream) :
    (pumpBodyToStream examined (.stream remaining) stream).written =
        stream.bytes.take remaining ∧
      (pumpBodyToStream examined (.stream remaining) stream).rest.bytes =
        stream.bytes.drop remaining ∧
      (pumpBodyToStream examined (.stream remaining) stream).outcome =
        if remaining ≤ stream.bytes.length then none else stream.ending.outcome := by
  induction sameSize : stream.bytes.length using Nat.strong_induction_on
    generalizing remaining stream with
  | _ size ih =>
    by_cases finished : remaining = 0
    · subst finished
      have read : BodySource.readSome examined pumpSize (.stream 0) stream =
          (.stream 0, .ok [], stream) := rfl
      simp [pump_of_end read]
    rcases stream with ⟨segments, ending⟩
    cases segments with
    | nil =>
      have read := readSome_stream_of_nil examined finished ending
      have short : ¬remaining ≤ size := by
        simp at sameSize
        omega
      cases ending with
      | fin => simp [pump_of_end read, StreamEnd.outcome]
      | error ec => simp [pump_of_error read, StreamEnd.outcome, short]
    | cons segment later =>
      rcases exists_readSome_stream examined finished segment later ending with
        ⟨data, rest, read, nonempty, fits, sameEnd, same⟩
      have fewer : rest.bytes.length < size := by
        have := List.length_pos_iff.mpr nonempty
        rw [← sameSize, ← same, List.length_append]
        omega
      rcases ih _ fewer (remaining - data.length) rest rfl with ⟨written, left, outcome⟩
      rw [pump_of_piece read nonempty]
      simp only [written, left, outcome, sameEnd, ← same, ← sameSize, List.length_append]
      refine ⟨?_, ?_, ?_⟩
      · rw [List.take_append, List.take_of_length_le fits]
      · rw [List.drop_append, List.drop_of_length_le fits, List.nil_append]
      · have : remaining - data.length ≤ rest.bytes.length ↔
            remaining ≤ data.length + rest.bytes.length := by omega
        simp [this]

/-- The error that a pump reports at the end of a stream whose end is the end of the body. -/
def StreamEnd.eofOutcome : StreamEnd → Option ErrorCode
  | .fin => none
  | .error .eof => none
  | .error ec => some ec

/-- The pump writes all that is left of a stream which is read to its end. -/
theorem pump_streamEof (examined : ℕ → UInt8) (stream : InStream) :
    pumpBodyToStream examined .streamEof stream =
      ⟨stream.bytes, stream.ending.eofOutcome, ⟨[], stream.ending⟩⟩ := by
  induction sameSize : stream.bytes.length using Nat.strong_induction_on generalizing stream with
  | _ size ih =>
    have asks : BodySource.readSome examined pumpSize .streamEof stream =
        BodySource.fetch examined .streamEof pumpSize stream := rfl
    obtain ⟨segments, ending⟩ := stream
    cases segments with
    | nil =>
      have fetched : BodySource.fetch examined .streamEof pumpSize ⟨[], ending⟩ =
          (.streamEof, ending.eofOutcome.elim (.ok []) ReadResult.error, ⟨[], ending⟩) := by
        apply BodySource.fetch_of_deliver (InStream.readSome_nil _ _)
        rcases ending with _ | ec
        · rfl
        · cases ec <;> rfl
      cases outcome : ending.eofOutcome with
      | none =>
        rw [outcome] at fetched
        simp [pump_of_end (asks.trans fetched)]
      | some ec =>
        rw [outcome] at fetched
        simp [pump_of_error (asks.trans fetched)]
    | cons segment later =>
      obtain ⟨data, rest, read, nonempty, -, sameEnd, same⟩ :=
        InStream.readSome_cons (by decide : 0 < pumpSize) segment later ending
      have fetched : BodySource.fetch examined .streamEof pumpSize
          ⟨segment :: later, ending⟩ = (.streamEof, .ok data, rest) :=
        BodySource.fetch_of_deliver read (by simp [BodySource.onRead])
      have fewer := InStream.length_lt_of_readSome read nonempty
      rw [pump_of_piece (asks.trans fetched) nonempty, ih _ (sameSize ▸ fewer) rest rfl]
      rw [← InStream.bytes_cons] at same
      simp [sameEnd, same]

/--
When the indeterminate byte happens to be a line feed, the decoder takes the
first chunk-size line for an empty one and gives up.
-/
theorem pump_chunked_lf (stream : InStream) :
    (pumpBodyToStream (fun _ => LF) (.chunked {}) stream).outcome ≠ none := by
  have asks : BodySource.readSome (fun _ => LF) pumpSize (.chunked {}) stream =
      BodySource.fetch (fun _ => LF) (.chunked { wait := .sizeLine pumpSize }) 1 stream := rfl
  suffices gaveUp : ∃ body ec rest,
      BodySource.fetch (fun _ => LF) (.chunked { wait := .sizeLine pumpSize }) 1 stream =
        (body, .error ec, rest) by
    obtain ⟨body, ec, rest, fetched⟩ := gaveUp
    simp [pump_of_error (asks.trans fetched)]
  obtain ⟨segments, ending⟩ := stream
  cases segments with
  | nil =>
    cases ending with
    | fin => exact ⟨_, _, _, BodySource.fetch_of_deliver (InStream.readSome_nil _ _) rfl⟩
    | error ec => exact ⟨_, _, _, BodySource.fetch_of_deliver (InStream.readSome_nil _ _) rfl⟩
  | cons segment later =>
    obtain ⟨data, rest, read, nonempty, -⟩ :=
      InStream.readSome_cons Nat.one_pos segment later ending
    obtain ⟨byte, data, rfl⟩ := List.exists_cons_of_ne_nil nonempty
    exact ⟨_, _, _, BodySource.fetch_of_deliver read rfl⟩

end ReverseProxy
