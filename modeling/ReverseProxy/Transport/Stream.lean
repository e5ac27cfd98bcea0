import ReverseProxy.Codec.HttpMessage

/-!
# Reading from a transport stream

The receiving side of an `ITransportStream`.  The peer's bytes arrive in
segments; a read returns at most as many bytes as its buffer holds and never
crosses a segment, so the segments fix where the reads may cut the byte stream.
When no segment is left, every read reports how the stream ended: TCP with the
error `eof`, QUIC with a successful read of zero bytes, a broken connection with
another error.
-/

namespace ReverseProxy

open Text

/-- Completion of `async_read_some`: an error, or the bytes that were read. -/
inductive ReadResult where
  | ok (data : Bytes)
  | error (ec : ErrorCode)
  deriving DecidableEq, Repr

/-- The bytes that a read returned, none when it failed. -/
def ReadResult.data : ReadResult → Bytes
  | .ok data => data
  | .error _ => []

/-- Bytes that one read can return together; there is at least one. -/
structure Segment where
  bytes : Bytes
  nonempty : bytes ≠ []
  deriving DecidableEq

/-- What a read returns once everything the peer sent has been read. -/
inductive StreamEnd where
  /-- A successful read of zero bytes. -/
  | fin
  | error (ec : ErrorCode)
  deriving DecidableEq, Repr

/-- What a read at the end gives. -/
def StreamEnd.result : StreamEnd → ReadResult
  | .fin => .ok []
  | .error ec => .error ec

/-- The error that a reader reports which needs more bytes than there are. -/
def StreamEnd.errorCode : StreamEnd → ErrorCode
  | .fin => .eof
  | .error ec => ec

/-- A stream that is read from: its segments as they arrive, and how it ends. -/
structure InStream where
  segments : List Segment
  ending : StreamEnd
  deriving DecidableEq

namespace InStream

/-- All bytes that are still to be read. -/
def bytes (stream : InStream) : Bytes :=
  stream.segments.flatMap Segment.bytes

/-- `async_read_some` with a buffer of the given capacity. -/
def readSome (capacity : ℕ) (stream : InStream) : ReadResult × InStream :=
  match stream.segments with
  | [] => (stream.ending.result, stream)
  | segment :: later =>
    if rest : segment.bytes.drop capacity = [] then
      (.ok segment.bytes, { stream with segments := later })
    else
      (.ok (segment.bytes.take capacity),
        { stream with segments := ⟨segment.bytes.drop capacity, rest⟩ :: later })

@[simp]
theorem bytes_nil (ending : StreamEnd) : InStream.bytes ⟨[], ending⟩ = [] := rfl

@[simp]
theorem bytes_cons (segment : Segment) (later : List Segment) (ending : StreamEnd) :
    InStream.bytes ⟨segment :: later, ending⟩ =
      segment.bytes ++ InStream.bytes ⟨later, ending⟩ := rfl

theorem readSome_nil (capacity : ℕ) (ending : StreamEnd) :
    readSome capacity ⟨[], ending⟩ = (ending.result, ⟨[], ending⟩) := rfl

/-- A read returns the next bytes, at least one and at most as many as the buffer holds. -/
theorem readSome_cons {capacity : ℕ} (positive : 0 < capacity) (segment : Segment)
    (later : List Segment) (ending : StreamEnd) :
    ∃ data rest, readSome capacity ⟨segment :: later, ending⟩ = (.ok data, rest) ∧
      data ≠ [] ∧ data.length ≤ capacity ∧ rest.ending = ending ∧
      data ++ rest.bytes = segment.bytes ++ InStream.bytes ⟨later, ending⟩ := by
  by_cases fits : segment.bytes.drop capacity = []
  · refine ⟨segment.bytes, ⟨later, ending⟩, by simp [readSome, fits], segment.nonempty, ?_,
      rfl, rfl⟩
    simpa using fits
  · refine ⟨segment.bytes.take capacity,
      ⟨⟨segment.bytes.drop capacity, fits⟩ :: later, ending⟩, by simp [readSome, fits], ?_,
      by simp, rfl, ?_⟩
    · simp only [ne_eq, List.take_eq_nil_iff, not_or]
      exact ⟨by omega, segment.nonempty⟩
    · simp [← List.append_assoc]

/-- What a read returns, it takes off the stream. -/
theorem data_append_of_readSome {capacity : ℕ} {stream rest : InStream} {result : ReadResult}
    (read : stream.readSome capacity = (result, rest)) :
    result.data ++ rest.bytes = stream.bytes := by
  obtain ⟨segments, ending⟩ := stream
  cases segments with
  | nil =>
    simp only [readSome, Prod.mk.injEq] at read
    obtain ⟨rfl, rfl⟩ := read
    cases ending <;> rfl
  | cons segment later =>
    simp only [readSome] at read
    split at read <;> simp only [Prod.mk.injEq] at read <;> obtain ⟨rfl, rfl⟩ := read
    · rfl
    · simp [ReadResult.data, ← List.append_assoc]

/-- No read adds to what is left to be read. -/
theorem length_le_of_readSome {capacity : ℕ} {stream rest : InStream} {result : ReadResult}
    (read : stream.readSome capacity = (result, rest)) :
    rest.bytes.length ≤ stream.bytes.length := by
  simp [← data_append_of_readSome read]

/-- A read which returns some bytes leaves fewer to be read. -/
theorem length_lt_of_readSome {capacity : ℕ} {stream rest : InStream} {result : ReadResult}
    (read : stream.readSome capacity = (result, rest)) (nonempty : result.data ≠ []) :
    rest.bytes.length < stream.bytes.length := by
  have := List.length_pos_iff.mpr nonempty
  rw [← data_append_of_readSome read, List.length_append]
  omega

/--
The number of bytes that reads with a buffer of the given capacity have returned
when they first amount to `count`: where the segmentation lets a reader stop
that needs that many bytes.
-/
def bytesReadTo (capacity count : ℕ) (stream : InStream) : ℕ :=
  if count = 0 ∨ capacity = 0 then 0
  else
    match _read : stream.readSome capacity with
    | (.ok (byte :: data), rest) =>
      (byte :: data).length + bytesReadTo capacity (count - (byte :: data).length) rest
    | _ => 0
termination_by stream.bytes.length
decreasing_by exact length_lt_of_readSome _read (by simp [ReadResult.data])

@[simp]
theorem bytesReadTo_zero (capacity : ℕ) (stream : InStream) :
    stream.bytesReadTo capacity 0 = 0 := by
  rw [bytesReadTo]
  simp

theorem bytesReadTo_of_read {capacity count : ℕ} (needed : 0 < count) (positive : 0 < capacity)
    {stream rest : InStream} {data : Bytes} (read : stream.readSome capacity = (.ok data, rest))
    (nonempty : data ≠ []) :
    stream.bytesReadTo capacity count =
      data.length + rest.bytesReadTo capacity (count - data.length) := by
  obtain ⟨byte, data, rfl⟩ := List.exists_cons_of_ne_nil nonempty
  rw [bytesReadTo]
  have : ¬(count = 0 ∨ capacity = 0) := by omega
  simp only [this, if_false]
  split
  · rename_i byte' data' rest' read'
    rw [read] at read'
    simp only [Prod.mk.injEq, ReadResult.ok.injEq, List.cons.injEq] at read'
    obtain ⟨⟨rfl, rfl⟩, rfl⟩ := read'
    rfl
  · rename_i other
    exact (other byte data rest read).elim

end InStream

end ReverseProxy
