import ReverseProxy.Machine.Monitor
import ReverseProxy.Transport.QuicStream

/-!
# The end of a body

A body source tells its consumer of the end of the body with a successful read of zero
bytes.  Here a source stands between a consumer, which has at most one read outstanding, and
a stream that completes the reads of the source in any way: with at most as many bytes as it
was asked for, with none, or with an error.
-/

namespace ReverseProxy

open Machine Text

/-- A body that is read. -/
structure BodyReader where
  source : BodySource
  /-- The capacity of the read that is outstanding at the stream. -/
  waiting : Option ℕ := none
  /-- The consumer has been told of an error. -/
  failed : Bool := false
  deriving DecidableEq

namespace BodyReader

/-- What can happen to it. -/
inductive Input where
  /-- The consumer reads, with a buffer of this capacity. -/
  | request (capacity : ℕ)
  /-- A read of the stream completes; `examined` is the byte that a line is made of. -/
  | complete (examined : UInt8) (result : ReadResult)
  deriving DecidableEq

/-- What is recorded. -/
inductive Entry where
  | received (result : ReadResult)
  | delivered (result : ReadResult)
  deriving DecidableEq

/-- An error has been reported. -/
def told (failed : Bool) : ReadResult → Bool
  | .ok _ => failed
  | .error _ => true

/-- What the source asks for is done. -/
def proceed (failed : Bool) : BodySource × BodyStep → BodyReader × List Entry
  | (source, .deliver result) => ({ source, failed := told failed result }, [.delivered result])
  | (source, .read capacity) => ({ source, failed, waiting := some capacity }, [])

/-- One event. -/
def step (reader : BodyReader) : Input → Option (BodyReader × List Entry)
  | .request capacity =>
    if reader.waiting.isSome then none
    else some (proceed reader.failed (reader.source.asyncReadSome capacity))
  | .complete examined result =>
    reader.waiting.bind fun capacity =>
      if capacity < result.data.length then none
      else
        let next := proceed reader.failed (reader.source.onRead examined result)
        some (next.1, .received result :: next.2)

/-- All bytes that have been delivered to the consumer. -/
def bytesDelivered (trace : List Entry) : Bytes :=
  trace.flatMap fun
    | .delivered result => result.data
    | .received _ => []

/-- All bytes that have been read from the stream. -/
def bytesReceived (trace : List Entry) : Bytes :=
  trace.flatMap fun
    | .received result => result.data
    | .delivered _ => []

theorem bytesDelivered_append (first second : List Entry) :
    bytesDelivered (first ++ second) = bytesDelivered first ++ bytesDelivered second :=
  List.flatMap_append

theorem bytesReceived_append (first second : List Entry) :
    bytesReceived (first ++ second) = bytesReceived first ++ bytesReceived second :=
  List.flatMap_append

/-- Wherever the end of the body is delivered, this holds of what has happened before. -/
def EndsOnlyIf (complete : List Entry → Prop) (trace : List Entry) : Prop :=
  ∀ before entry after, trace = before ++ entry :: after → entry = .delivered (.ok []) →
    complete before

theorem step_cases {reader next : BodyReader} {input : Input} {entries : List Entry}
    (taken : reader.step input = some (next, entries)) :
    (∃ capacity, input = .request capacity ∧ reader.waiting = none ∧
        proceed reader.failed (reader.source.asyncReadSome capacity) = (next, entries)) ∨
      ∃ capacity examined result later, input = .complete examined result ∧
        reader.waiting = some capacity ∧ result.data.length ≤ capacity ∧
        proceed reader.failed (reader.source.onRead examined result) = (next, later) ∧
        entries = .received result :: later := by
  cases input with
  | request capacity =>
    rw [step, Option.ite_none_left_eq_some, Option.not_isSome_iff_eq_none,
      Option.some.injEq] at taken
    exact Or.inl ⟨capacity, rfl, taken.1, taken.2⟩
  | complete examined result =>
    rcases Option.bind_eq_some_iff.mp taken with ⟨capacity, isWaiting, taken⟩
    rw [Option.ite_none_left_eq_some, not_lt, Option.some.injEq, Prod.mk.injEq] at taken
    rcases taken with ⟨fits, rfl, rfl⟩
    exact Or.inr ⟨capacity, examined, result, _, rfl, isWaiting, fits, rfl, rfl⟩

theorem endsOnlyIf_of_not_mem {complete : List Entry → Prop} {entries : List Entry}
    (noEnd : .delivered (.ok []) ∉ entries) : EndsOnlyIf complete entries := by
  rintro before entry after rfl rfl
  exact absurd (by simp) noEnd

/-! ## Bodies with a length -/

/-- No read of the stream returns zero bytes without an error. -/
def NeverEmpty (_ : BodyReader) : Input → Prop
  | .complete _ result => result ≠ .ok []
  | .request _ => True

instance (reader : BodyReader) : ∀ input, Decidable (reader.NeverEmpty input)
  | .complete _ result => inferInstanceAs (Decidable (result ≠ .ok []))
  | .request _ => .isTrue trivial

/-- The bytes that are still to come are those that have not been delivered. -/
def Sized (length : ℕ) (trace : List Entry) (reader : BodyReader) : Prop :=
  ∃ remaining, reader.source = .stream remaining ∧
    (bytesDelivered trace).length + remaining = length ∧
    (reader.waiting.isSome = true → 0 < remaining)

variable {length : ℕ} {trace entries : List Entry} {reader next : BodyReader}

theorem Sized.request (sized : Sized length trace reader) {capacity : ℕ} (proceeds :
      proceed reader.failed (reader.source.asyncReadSome capacity) = (next, entries)) :
    EndsOnlyIf (fun before => (bytesDelivered (trace ++ before)).length = length) entries ∧
      Sized length (trace ++ entries) next := by
  rcases sized with ⟨remaining, isSource, total, -⟩
  rw [isSource, BodySource.asyncReadSome] at proceeds
  by_cases done : remaining = 0
  · rw [if_pos done] at proceeds
    cases proceeds
    constructor
    · refine forall_split_cons_iff.mpr ⟨?_, forall_split_nil⟩
      intro _
      rw [List.append_nil]
      omega
    · refine ⟨remaining, rfl, ?_, by simp⟩
      rw [bytesDelivered_append, List.length_append]
      exact total
  · rw [if_neg done] at proceeds
    cases proceeds
    rw [List.append_nil]
    exact ⟨forall_split_nil, remaining, rfl, total, fun _ => Nat.pos_of_ne_zero done⟩

theorem Sized.complete (sized : Sized length trace reader) {capacity : ℕ}
    (isWaiting : reader.waiting = some capacity) {examined : UInt8} {result : ReadResult}
    (notEmpty : result ≠ .ok [])
    (proceeds : proceed reader.failed (reader.source.onRead examined result) = (next, entries)) :
    .delivered (.ok []) ∉ entries ∧ Sized length (trace ++ .received result :: entries) next := by
  rcases sized with ⟨remaining, isSource, total, positive⟩
  have isPositive : 0 < remaining := positive (by rw [isWaiting]; rfl)
  rw [isSource] at proceeds
  cases result with
  | error ec =>
    cases proceeds
    refine ⟨by simp, remaining, rfl, ?_, by simp⟩
    rw [bytesDelivered_append, List.length_append]
    exact total
  | ok data =>
    cases proceeds
    refine ⟨?_, remaining - data.length, rfl, ?_, by simp⟩
    · have nonempty : data ≠ [] := by
        rintro rfl
        exact notEmpty rfl
      simp [nonempty, isPositive.ne']
    · rw [bytesDelivered_append, List.length_append]
      have delivered : (bytesDelivered [.received (.ok data),
          .delivered (.ok (data.take remaining))]).length = min remaining data.length := by
        simp [bytesDelivered, ReadResult.data]
      rw [delivered]
      omega

theorem sized_ends
    (runs : Runs step NeverEmpty { source := .stream length } trace reader) :
    EndsOnlyIf (fun before => (bytesDelivered before).length = length) trace := by
  have start : Sized length [] { source := .stream length } :=
    ⟨length, rfl, Nat.zero_add length, by simp⟩
  refine (Runs.forall_split start ?_ runs).1
  intro trace reader input next entries sized notEmpty taken
  rcases step_cases taken with ⟨capacity, rfl, -, proceeds⟩ |
    ⟨capacity, examined, result, later, rfl, isWaiting, -, proceeds, rfl⟩
  · exact sized.request proceeds
  · rcases sized.complete isWaiting notEmpty proceeds with ⟨noEnd, kept⟩
    refine ⟨endsOnlyIf_of_not_mem ?_, kept⟩
    simpa using noEnd

/-! ## Chunked bodies -/

/-- A line as the decoder collects it. -/
def lineText (line : Bytes) : Bytes := line.filter (fun byte => byte ≠ CR)

/-- The size that the decoder takes from a line. -/
def chunkSize (line : Bytes) : Option ℕ :=
  strtoul 16 (ChunkedBodySource.sizeField (lineText line))

/-- Lines up to an empty one. -/
inductive TrailerSection : Bytes → Prop where
  | last {line : Bytes} : LF ∉ line → lineText line = [] → TrailerSection (line ++ [LF])
  | field {line rest : Bytes} : LF ∉ line → TrailerSection rest →
      TrailerSection (line ++ LF :: rest)

/--
A whole chunked body, as far as the decoder looks: chunks of the announced sizes with two
bytes behind each, the last-chunk, and the trailer section.
-/
inductive ChunkedWire : Bytes → Prop where
  | last {line trailer : Bytes} : LF ∉ line → chunkSize line = some 0 → TrailerSection trailer →
      ChunkedWire (line ++ LF :: trailer)
  | chunk {line payload ending rest : Bytes} : LF ∉ line →
      chunkSize line = some payload.length → ending.length = 2 → ChunkedWire rest →
      ChunkedWire (line ++ LF :: (payload ++ ending ++ rest))

/-- Whole chunks, which something that ends a body may follow. -/
def Chunks (whole : Bytes) : Prop := ∀ rest, ChunkedWire rest → ChunkedWire (whole ++ rest)

/-- Whole trailer fields. -/
def Fields (fields : Bytes) : Prop :=
  ∀ rest, TrailerSection rest → TrailerSection (fields ++ rest)

theorem Chunks.chunk {whole line payload ending : Bytes} (chunks : Chunks whole)
    (unbroken : LF ∉ line) (size : chunkSize line = some payload.length)
    (two : ending.length = 2) : Chunks (whole ++ (line ++ LF :: (payload ++ ending))) := by
  intro rest ends
  have next := chunks _ (.chunk unbroken size two ends)
  simpa using next

theorem Fields.field {fields line : Bytes} (isFields : Fields fields) (unbroken : LF ∉ line) :
    Fields (fields ++ (line ++ [LF])) := by
  intro rest ends
  have next := isFields _ (.field unbroken ends)
  simpa using next

/-- What the decoder examines is what it has read, and a chunk does not end early. -/
def examinesInput (wait : ChunkedWait) (examined : UInt8) (result : ReadResult) : Bool :=
  match wait with
  | .payload => result ≠ .ok []
  | .crlf _ _ => true
  | .sizeLine _ | .trailer => result.data.all (fun byte => byte = examined)

/-- The decoder examines its input, and is not asked again after an error. -/
def DecodesInput (reader : BodyReader) : Input → Prop
  | .request _ => reader.failed = false
  | .complete examined result =>
    match reader.source with
    | .chunked source => examinesInput source.wait examined result = true
    | _ => True

instance (reader : BodyReader) : ∀ input, Decidable (reader.DecodesInput input)
  | .request _ => inferInstanceAs (Decidable (reader.failed = false))
  | .complete examined result =>
    match h : reader.source with
    | .chunked source =>
      decidable_of_iff (examinesInput source.wait examined result = true)
        (by simp [DecodesInput, h])
    | .stream _ | .buffer _ _ | .streamEof => .isTrue (by simp [DecodesInput, h])

/-- How far the decoder is in what it has received. -/
inductive Decoding (source : ChunkedBodySource) (waiting : Option ℕ) (received : Bytes) : Prop where
  | between : source.finished = false → source.chunkRemaining = 0 → waiting = none →
      Chunks received → Decoding source waiting received
  | sizeLine {capacity : ℕ} {whole part : Bytes} : source.finished = false →
      source.wait = .sizeLine capacity → waiting = some 1 → Chunks whole → LF ∉ part →
      source.sizeLine = lineText part → received = whole ++ part →
      Decoding source waiting received
  | chunk {whole line got : Bytes} : source.finished = false → 0 < source.chunkRemaining →
      (∀ capacity ∈ waiting, source.wait = .payload ∧ capacity ≤ source.chunkRemaining) →
      Chunks whole → LF ∉ line → chunkSize line = some (got.length + source.chunkRemaining) →
      received = whole ++ (line ++ LF :: got) → Decoding source waiting received
  | crlf {count capacity : ℕ} {payload whole line got ending : Bytes} :
      source.finished = false → source.chunkRemaining = 0 → source.wait = .crlf count payload →
      payload ≠ [] → waiting = some capacity → capacity ≤ count → ending.length + count = 2 →
      Chunks whole → LF ∉ line → chunkSize line = some got.length →
      received = whole ++ (line ++ LF :: (got ++ ending)) → Decoding source waiting received
  | trailer {whole line fields part : Bytes} : source.finished = false →
      source.wait = .trailer → waiting = some 1 → Chunks whole → LF ∉ line →
      chunkSize line = some 0 → Fields fields → LF ∉ part → source.sizeLine = lineText part →
      received = whole ++ (line ++ LF :: (fields ++ part)) → Decoding source waiting received
  | finished : source.finished = true → waiting = none → ChunkedWire received →
      Decoding source waiting received

/-- The decoder is at its place, or its consumer knows of an error. -/
def Decodes (trace : List Entry) (reader : BodyReader) : Prop :=
  reader.failed = true ∧ reader.waiting = none ∨
    ∃ source, reader.source = .chunked source ∧
      Decoding source reader.waiting (bytesReceived trace)

/-- Where the decoder is after a step. -/
def Advances (received : Bytes) : ChunkedBodySource × BodyStep → Prop
  | (source, .read capacity) => Decoding source (some capacity) received
  | (source, .deliver (.ok data)) =>
    Decoding source none received ∧ (data = [] → ChunkedWire received)
  | (_, .deliver (.error _)) => True

section Decoder

variable {source : ChunkedBodySource} {received whole line part fields : Bytes}

theorem Decoding.request (decoding : Decoding source none received) (capacity : ℕ) :
    Advances received (source.asyncReadSome capacity) := by
  unfold ChunkedBodySource.asyncReadSome
  cases decoding with
  | between unfinished noChunk _ chunks =>
    rw [unfinished, if_neg Bool.false_ne_true, if_pos noChunk]
    exact .sizeLine unfinished rfl rfl chunks List.not_mem_nil rfl (List.append_nil _).symm
  | chunk unfinished inChunk _ chunks unbroken size isReceived =>
    rw [unfinished, if_neg Bool.false_ne_true, if_neg inChunk.ne']
    refine .chunk unfinished inChunk ?_ chunks unbroken size isReceived
    rintro _ ⟨⟩
    exact ⟨rfl, min_le_right _ _⟩
  | finished isFinished isNone ends =>
    rw [if_pos isFinished]
    exact ⟨.finished isFinished isNone ends, fun _ => ends⟩
  | sizeLine _ _ isWaiting => cases isWaiting
  | crlf _ _ _ _ isWaiting => cases isWaiting
  | trailer _ _ isWaiting => cases isWaiting

theorem advances_onSizeLine (unfinished : source.finished = false) (chunks : Chunks whole)
    (unbroken : LF ∉ line) (isLine : source.sizeLine = lineText line) (capacity : ℕ) :
    Advances (whole ++ (line ++ [LF])) (source.onSizeLine capacity) := by
  unfold ChunkedBodySource.onSizeLine
  have isSize : strtoul 16 (ChunkedBodySource.sizeField source.sizeLine) = chunkSize line := by
    rw [isLine, chunkSize]
  dsimp only
  rw [isSize]
  split
  · exact trivial
  · rename_i isLast
    have noFields : Fields [] := fun _ ends => ends
    exact .trailer unfinished rfl rfl chunks unbroken isLast noFields List.not_mem_nil rfl rfl
  · rename_i size notLast announced
    have announced : chunkSize line = some (([] : Bytes).length + size) := by
      rw [announced, List.length_nil, Nat.zero_add]
    refine .chunk unfinished (Nat.pos_of_ne_zero notLast) ?_ chunks unbroken announced rfl
    rintro _ ⟨⟩
    exact ⟨rfl, min_le_right _ _⟩

theorem advances_onTrailer (unfinished : source.finished = false) (chunks : Chunks whole)
    (unbroken : LF ∉ line) (isLast : chunkSize line = some 0) (isFields : Fields fields)
    (unbrokenPart : LF ∉ part) (isLine : source.sizeLine = lineText part) :
    Advances (whole ++ (line ++ LF :: (fields ++ (part ++ [LF])))) source.onTrailer := by
  unfold ChunkedBodySource.onTrailer
  split
  · rename_i isEmpty
    have ends : ChunkedWire (whole ++ (line ++ LF :: (fields ++ (part ++ [LF])))) := by
      apply chunks
      apply ChunkedWire.last unbroken isLast
      apply isFields
      exact .last unbrokenPart (isLine ▸ isEmpty)
    exact ⟨.finished rfl rfl ends, fun _ => ends⟩
  · exact .trailer unfinished rfl rfl chunks unbroken isLast (isFields.field unbrokenPart)
      List.not_mem_nil rfl (by rw [List.append_nil])

theorem lineText_append (byte : UInt8) :
    lineText (part ++ [byte]) = if byte = CR then lineText part else lineText part ++ [byte] := by
  rw [lineText, List.filter_append]
  by_cases isCr : byte = CR
  · simp [isCr, lineText]
  · simp [isCr, lineText]

theorem not_mem_append_of_ne {byte : UInt8} (unbroken : LF ∉ part) (notLf : byte ≠ LF) :
    LF ∉ part ++ [byte] := by
  simp [unbroken, notLf.symm]

/-- The decoder reads on in a line, or is done with it. -/
theorem data_of_lineRead {examined : UInt8} {result : ReadResult} (short : result.data.length ≤ 1)
    (examines : result.data.all (fun byte => byte = examined) = true) :
    result.data = [] ∨ result = .ok [examined] := by
  cases result with
  | error ec => exact Or.inl rfl
  | ok data =>
    cases data with
    | nil => exact Or.inl rfl
    | cons byte rest =>
      have alone : rest = [] := List.length_eq_zero_iff.mp (Nat.le_zero.mp
        (Nat.le_of_succ_le_succ short))
      subst alone
      right
      simpa [ReadResult.data] using examines

theorem onRead_sizeLine {capacity : ℕ} (isWait : source.wait = .sizeLine capacity)
    (examined byte : UInt8) :
    source.onRead examined (.ok [byte]) =
      if examined = LF then source.onSizeLine capacity else source.pushLineByte examined := by
  unfold ChunkedBodySource.onRead
  rw [isWait]

theorem onRead_trailer (isWait : source.wait = .trailer) (examined byte : UInt8) :
    source.onRead examined (.ok [byte]) =
      if examined = LF then source.onTrailer else source.pushLineByte examined := by
  unfold ChunkedBodySource.onRead
  rw [isWait]

theorem onRead_payload (isWait : source.wait = .payload) (examined : UInt8) (data : Bytes) :
    source.onRead examined (.ok data) =
      if source.chunkRemaining - data.length = 0 then
        ({ source with chunkRemaining := 0, wait := .crlf 2 data }, .read 2)
      else
        ({ source with chunkRemaining := source.chunkRemaining - data.length },
          .deliver (.ok data)) := by
  unfold ChunkedBodySource.onRead
  rw [isWait]
  dsimp only
  split
  · rename_i ended
    rw [ended]
  · rfl

theorem onRead_payload_error (isWait : source.wait = .payload) (examined : UInt8)
    (ec : ErrorCode) : source.onRead examined (.error ec) = source.finish (.error ec) := by
  unfold ChunkedBodySource.onRead
  rw [isWait]

theorem onRead_crlf {count : ℕ} {payload : Bytes} (isWait : source.wait = .crlf count payload)
    (examined byte : UInt8) (rest : Bytes) :
    source.onRead examined (.ok (byte :: rest)) =
      if count ≤ rest.length + 1 then (source, .deliver (.ok payload))
      else
        ({ source with wait := .crlf (count - (rest.length + 1)) payload },
          .read (min (count - (rest.length + 1)) 64)) := by
  unfold ChunkedBodySource.onRead
  rw [isWait]
  rfl

/-- Outside of a chunk, a read that returns nothing is an error. -/
theorem advances_of_nothing (outside : source.wait ≠ .payload) {result : ReadResult}
    (nothing : result.data = []) (examined : UInt8) :
    Advances received (source.onRead examined result) := by
  unfold ChunkedBodySource.onRead
  cases result with
  | error ec =>
    cases wait : source.wait with
    | payload => exact absurd wait outside
    | sizeLine capacity => exact trivial
    | crlf count payload => exact trivial
    | trailer => exact trivial
  | ok data =>
    cases nothing
    cases wait : source.wait with
    | payload => exact absurd wait outside
    | sizeLine capacity => exact trivial
    | crlf count payload => exact trivial
    | trailer => exact trivial

theorem sizeLine_pushLineByte (isLine : source.sizeLine = lineText part) (byte : UInt8) :
    (source.pushLineByte byte).1.sizeLine = lineText (part ++ [byte]) := by
  rw [ChunkedBodySource.pushLineByte, lineText_append, isLine]

section Reads

variable {examined : UInt8} {result : ReadResult} {capacity count : ℕ} {got ending payload : Bytes}

theorem advances_sizeLine (unfinished : source.finished = false)
    (isWait : source.wait = .sizeLine capacity) (chunks : Chunks whole) (unbroken : LF ∉ part)
    (isLine : source.sizeLine = lineText part) (short : result.data.length ≤ 1)
    (examines : result.data.all (fun byte => byte = examined) = true) :
    Advances (whole ++ part ++ result.data) (source.onRead examined result) := by
  rcases data_of_lineRead short examines with nothing | rfl
  · exact advances_of_nothing (by simp [isWait]) nothing examined
  · rw [onRead_sizeLine isWait, ReadResult.data, List.append_assoc]
    split
    · rename_i isLf
      rw [isLf]
      exact advances_onSizeLine unfinished chunks unbroken isLine _
    · rename_i notLf
      exact .sizeLine unfinished isWait rfl chunks (not_mem_append_of_ne unbroken notLf)
        (sizeLine_pushLineByte isLine examined) rfl

theorem advances_trailer (unfinished : source.finished = false) (isWait : source.wait = .trailer)
    (chunks : Chunks whole) (unbroken : LF ∉ line) (isLast : chunkSize line = some 0)
    (isFields : Fields fields) (unbrokenPart : LF ∉ part)
    (isLine : source.sizeLine = lineText part) (short : result.data.length ≤ 1)
    (examines : result.data.all (fun byte => byte = examined) = true) :
    Advances (whole ++ (line ++ LF :: (fields ++ part)) ++ result.data)
      (source.onRead examined result) := by
  rcases data_of_lineRead short examines with nothing | rfl
  · exact advances_of_nothing (by simp [isWait]) nothing examined
  · have isReceived : whole ++ (line ++ LF :: (fields ++ part)) ++ [examined] =
        whole ++ (line ++ LF :: (fields ++ (part ++ [examined]))) := by
      simp
    rw [onRead_trailer isWait, ReadResult.data, isReceived]
    split
    · rename_i isLf
      rw [isLf]
      exact advances_onTrailer unfinished chunks unbroken isLast isFields unbrokenPart isLine
    · rename_i notLf
      exact .trailer unfinished isWait rfl chunks unbroken isLast isFields
        (not_mem_append_of_ne unbrokenPart notLf) (sizeLine_pushLineByte isLine examined) rfl

/-- A part of a chunk, or the rest of it, which is held back until its line end is read. -/
theorem advances_payload (unfinished : source.finished = false) (isWait : source.wait = .payload)
    (chunks : Chunks whole) (unbroken : LF ∉ line)
    (size : chunkSize line = some (got.length + source.chunkRemaining))
    (notEmpty : result ≠ .ok []) (fits : result.data.length ≤ source.chunkRemaining) :
    Advances (whole ++ (line ++ LF :: got) ++ result.data) (source.onRead examined result) := by
  cases result with
  | error ec =>
    rw [onRead_payload_error isWait]
    exact trivial
  | ok data =>
    have nonempty : data ≠ [] := by
      rintro rfl
      exact notEmpty rfl
    rw [onRead_payload isWait, ReadResult.data]
    rw [ReadResult.data] at fits
    split
    · rename_i ended
      have size' : chunkSize line = some (got ++ data).length := by
        rw [size, List.length_append]
        congr 1
        omega
      have isReceived : whole ++ (line ++ LF :: got) ++ data =
          whole ++ (line ++ LF :: (got ++ data ++ [])) := by
        simp
      exact .crlf unfinished rfl rfl nonempty rfl le_rfl rfl chunks unbroken size' isReceived
    · rename_i inside
      have size' : chunkSize line =
          some ((got ++ data).length + (source.chunkRemaining - data.length)) := by
        rw [size, List.length_append]
        congr 1
        omega
      have isReceived : whole ++ (line ++ LF :: got) ++ data =
          whole ++ (line ++ LF :: (got ++ data)) := by
        simp
      exact ⟨.chunk unfinished (Nat.pos_of_ne_zero inside) (by simp) chunks unbroken size'
        isReceived, fun isEmpty => absurd isEmpty nonempty⟩

theorem advances_crlf (unfinished : source.finished = false) (noChunk : source.chunkRemaining = 0)
    (isWait : source.wait = .crlf count payload) (nonempty : payload ≠ [])
    (two : ending.length + count = 2) (chunks : Chunks whole) (unbroken : LF ∉ line)
    (size : chunkSize line = some got.length) (fits : result.data.length ≤ count) :
    Advances (whole ++ (line ++ LF :: (got ++ ending)) ++ result.data)
      (source.onRead examined result) := by
  cases result with
  | error ec => exact advances_of_nothing (by simp [isWait]) rfl examined
  | ok data =>
    cases data with
    | nil => exact advances_of_nothing (by simp [isWait]) rfl examined
    | cons byte rest =>
      have isReceived : whole ++ (line ++ LF :: (got ++ ending)) ++ byte :: rest =
          whole ++ (line ++ LF :: (got ++ (ending ++ byte :: rest))) := by
        simp
      rw [ReadResult.data, List.length_cons] at fits
      rw [onRead_crlf isWait, ReadResult.data, isReceived]
      split
      · rename_i skipped
        refine ⟨.between unfinished noChunk rfl (chunks.chunk unbroken size ?_),
          fun isEmpty => absurd isEmpty nonempty⟩
        rw [List.length_append, List.length_cons]
        omega
      · rename_i notSkipped
        refine .crlf unfinished noChunk rfl nonempty rfl (min_le_left _ _) ?_ chunks
          unbroken size rfl
        rw [List.length_append, List.length_cons]
        omega

theorem Decoding.complete (decoding : Decoding source (some capacity) received)
    (fits : result.data.length ≤ capacity)
    (examines : examinesInput source.wait examined result = true) :
    Advances (received ++ result.data) (source.onRead examined result) := by
  cases decoding with
  | between _ _ isWaiting => cases isWaiting
  | finished _ isWaiting => cases isWaiting
  | sizeLine unfinished isWait isWaiting chunks unbroken isLine isReceived =>
    cases isWaiting
    rw [isWait] at examines
    rw [isReceived]
    exact advances_sizeLine unfinished isWait chunks unbroken isLine fits examines
  | trailer unfinished isWait isWaiting chunks unbroken isLast isFields unbrokenPart isLine
      isReceived =>
      cases isWaiting
      rw [isWait] at examines
      rw [isReceived]
      exact advances_trailer unfinished isWait chunks unbroken isLast isFields unbrokenPart isLine
        fits examines
  | chunk unfinished inChunk isWaiting chunks unbroken size isReceived =>
    rcases isWaiting capacity rfl with ⟨isWait, atMost⟩
    rw [isWait] at examines
    rw [isReceived]
    exact advances_payload unfinished isWait chunks unbroken size (of_decide_eq_true examines)
      (fits.trans atMost)
  | crlf unfinished noChunk isWait nonempty isWaiting atMost two chunks unbroken size isReceived =>
    cases isWaiting
    rw [isReceived]
    exact advances_crlf unfinished noChunk isWait nonempty two chunks unbroken size
      (fits.trans atMost)

end Reads

theorem Advances.proceed {outcome : ChunkedBodySource × BodyStep}
    (advances : Advances (bytesReceived trace) outcome) {failed : Bool}
    (proceeds : BodyReader.proceed failed (.chunked outcome.1, outcome.2) = (next, entries)) :
    EndsOnlyIf (fun before => ChunkedWire (bytesReceived (trace ++ before))) entries ∧
      Decodes (trace ++ entries) next := by
  rcases outcome with ⟨source, result | capacity⟩
  · cases proceeds
    have silent : bytesReceived (trace ++ [.delivered result]) = bytesReceived trace := by
      rw [bytesReceived_append]
      exact List.append_nil _
    cases result with
    | error ec => exact ⟨endsOnlyIf_of_not_mem (by simp), Or.inl ⟨rfl, rfl⟩⟩
    | ok data =>
      rcases advances with ⟨decoding, ends⟩
      rw [← silent] at decoding
      refine ⟨forall_split_cons_iff.mpr ⟨?_, forall_split_nil⟩,
        Or.inr ⟨source, rfl, decoding⟩⟩
      intro isEnd
      rw [List.append_nil]
      cases isEnd
      exact ends rfl
  · cases proceeds
    rw [List.append_nil]
    exact ⟨forall_split_nil, Or.inr ⟨source, rfl, advances⟩⟩

theorem Decodes.step {input : Input} (decodes : Decodes trace reader)
    (allowed : reader.DecodesInput input) (taken : reader.step input = some (next, entries)) :
    EndsOnlyIf (fun before => ChunkedWire (bytesReceived (trace ++ before))) entries ∧
      Decodes (trace ++ entries) next := by
  rcases step_cases taken with ⟨capacity, rfl, idle, proceeds⟩ |
    ⟨capacity, examined, result, later, rfl, isWaiting, fits, proceeds, rfl⟩
  · rcases decodes with ⟨failed, -⟩ | ⟨source, isSource, decoding⟩
    · rw [DecodesInput, failed] at allowed
      cases allowed
    · rw [isSource] at proceeds
      rw [idle] at decoding
      exact (decoding.request capacity).proceed proceeds
  · rcases decodes with ⟨-, idle⟩ | ⟨source, isSource, decoding⟩
    · rw [idle] at isWaiting
      cases isWaiting
    · rw [isSource] at proceeds
      rw [DecodesInput, isSource] at allowed
      rw [isWaiting] at decoding
      have advances := decoding.complete fits allowed
      have received : bytesReceived trace ++ result.data =
          bytesReceived (trace ++ [.received result]) := by
        rw [bytesReceived_append, bytesReceived.eq_def [.received result]]
        simp
      rw [received] at advances
      rcases advances.proceed proceeds with ⟨ends, decodes⟩
      rw [List.append_assoc] at decodes
      refine ⟨forall_split_cons_iff.mpr ⟨nofun, ?_⟩, decodes⟩
      intro before entry after isLater isEnd
      have whole : ChunkedWire (bytesReceived (trace ++ [.received result] ++ before)) :=
        ends before entry after isLater isEnd
      rwa [List.append_assoc] at whole

theorem chunked_ends
    (runs : Runs BodyReader.step DecodesInput { source := .chunked {} } trace reader) :
    EndsOnlyIf (fun before => ChunkedWire (bytesReceived before)) trace := by
  have start : Decodes [] { source := .chunked {} } :=
    Or.inr ⟨{}, rfl, .between rfl rfl rfl fun _ ends => ends⟩
  exact (Runs.forall_split start Decodes.step runs).1

end Decoder

/-! ## Bodies that end with a QUIC stream -/

open QuicTransportStream in
/-- Reads are completed neither by the end of the connection nor on a closed stream. -/
def ReadsOpen (s : QuicTransportStream) : Stimulus → Prop
  | .call (.asyncReadSome _) => s.stream = true
  | .event .close => s.readCb = none
  | .event (.readable _ .failed) => s.headersCb.isSome = true ∨ s.readCb = none
  | _ => True

open QuicTransportStream in
instance (s : QuicTransportStream) : ∀ stimulus, Decidable (ReadsOpen s stimulus)
  | .call (.asyncReadSome _) => inferInstanceAs (Decidable (s.stream = true))
  | .event .close => inferInstanceAs (Decidable (s.readCb = none))
  | .event (.readable _ .failed) =>
    inferInstanceAs (Decidable (s.headersCb.isSome = true ∨ s.readCb = none))
  | .call (.asyncWriteSome _ _) | .call (.asyncShutdown _) | .call (.asyncTakeHeaders _)
  | .call (.asyncSendHeaders _ _) | .event (.readable _ (.data _)) | .event (.readable _ .again)
  | .event (.readable _ .reset) | .event (.writeable _) | .event (.reset _) | .ret =>
    .isTrue trivial

open QuicTransportStream in
/-- A read that a body source turns into the end of the body is one that returned no bytes. -/
def EndsByFin (record : Stimulus × List Effect) : Prop :=
  ∀ cb examined result, .invoked cb (.read result) ∈ record.2 →
    (BodySource.streamEof.onRead examined result).2 = .deliver (.ok []) →
      ∃ hset, record.1 = .event (.readable hset (.data []))

theorem onRead_streamEof_iff {examined : UInt8} {result : ReadResult} :
    (BodySource.streamEof.onRead examined result).2 = .deliver (.ok []) ↔
      result = .ok [] ∨ result = .error .eof := by
  cases result with
  | ok data => simp [BodySource.onRead]
  | error ec => cases ec <;> simp [BodySource.onRead]

open QuicTransportStream in
theorem endsByFin_of_origin {s : QuicTransportStream} {stimulus : Stimulus} {result : ReadResult}
    (isOpen : ReadsOpen s stimulus) (origin : ReadOrigin s stimulus result)
    (ends : result = .ok [] ∨ result = .error .eof) :
    ∃ hset, stimulus = .event (.readable hset (.data [])) := by
  cases origin with
  | closed closed =>
    rw [ReadsOpen, closed] at isOpen
    cases isOpen
  | close pending => exact absurd isOpen pending
  | reset => simp at ends
  | @readable hset read _ notTaking pending isResult =>
    refine ⟨hset, ?_⟩
    cases read with
    | data bytes =>
      cases isResult
      simp at ends
      rw [ends]
    | again => cases isResult
    | reset =>
      cases isResult
      simp at ends
    | failed =>
      rw [ReadsOpen, notTaking] at isOpen
      simp [pending] at isOpen

open QuicTransportStream in
theorem endsByFin_step {s next : QuicTransportStream} {stimulus : Stimulus}
    {effects : List Effect} (isOpen : ReadsOpen s stimulus)
    (taken : s.step stimulus = some (next, effects)) : EndsByFin (stimulus, effects) := by
  have admits : Admits fun effect =>
      ∀ cb result, effect = .invoked cb (.read result) → ReadOrigin s stimulus result :=
    ⟨nofun, nofun, nofun, nofun, nofun⟩
  have each := admits.each_step (s := s) (fun _ _ => nofun) ?_ taken
  · intro cb examined result invoked ends
    exact endsByFin_of_origin isOpen (each _ invoked cb result rfl)
      (onRead_streamEof_iff.mp ends)
  · rintro cb result origin _ _ ⟨⟩
    exact origin

open QuicTransportStream in
/-- A body that ends with a QUIC stream ends where lsquic reads no bytes. -/
theorem streamEof_ends {trace : List (Stimulus × List Effect)} {s : QuicTransportStream}
    (runs : Runs (recorded QuicTransportStream.step) ReadsOpen {} trace s) :
    ∀ record ∈ trace, EndsByFin record := by
  refine Runs.forall_action ?_ runs
  intro s stimulus next records isOpen taken
  rcases recorded_eq_some_iff.mp taken with ⟨effects, stepped, rfl⟩
  exact List.forall_mem_singleton.mpr (endsByFin_step isOpen stepped)

open QuicTransportStream in
/--
However the stream below completes its reads, and in whatever order a QUIC stream is called
and reports its events, a body source reports the end of the body only where its framing is
satisfied: with a length, after exactly that many bytes, as long as no read returns zero bytes
without an error; with chunks, after the last-chunk and the trailer section, as long as the
decoder examines the bytes that it reads, is not given zero bytes within a chunk and not
asked again after an error; and on a QUIC stream, where lsquic reads zero bytes, as long as
the stream is not closed, and reading it does not fail, under a read.
-/
theorem truncation_never_completes (length : ℕ) :
    (∀ trace reader, Runs step NeverEmpty { source := .stream length } trace reader →
      EndsOnlyIf (fun before => (bytesDelivered before).length = length) trace) ∧
    (∀ trace reader, Runs step DecodesInput { source := .chunked {} } trace reader →
      EndsOnlyIf (fun before => ChunkedWire (bytesReceived before)) trace) ∧
    ∀ trace s, Runs (recorded QuicTransportStream.step) ReadsOpen {} trace s →
      ∀ record ∈ trace, EndsByFin record :=
  ⟨fun _ _ => sized_ends, fun _ _ => chunked_ends, fun _ _ => streamEof_ends⟩

/-- The consumer reads once, and each byte of the stream is examined as it comes. -/
def readsBytes (bytes : Bytes) : List Input :=
  .request 4096 :: bytes.map fun byte => .complete byte (.ok [byte])

/-- The body `0` with an empty trailer section. -/
def emptyChunked : Bytes := [48, CR, LF, CR, LF]

/-- A body of two bytes, and the read that finds its end. -/
def readsTwo : List Input := [.request 4096, .complete 0 (.ok [104, 105]), .request 4096]

/-- A body is read from a QUIC stream, of which lsquic reads a byte and then the FIN. -/
def readsFin : List QuicTransportStream.Stimulus :=
  [.call (.asyncReadSome 4096), .event (.readable none (.data [104])),
    .call (.asyncReadSome 4096), .ret, .event (.readable none (.data []))]

open QuicTransportStream in
theorem truncation_never_completes_whole :
    (∃ trace reader, Runs step NeverEmpty { source := .stream 2 } trace reader ∧
      .delivered (.ok []) ∈ trace ∧
      EndsOnlyIf (fun before => (bytesDelivered before).length = 2) trace) ∧
      (∃ trace reader, Runs step DecodesInput { source := .chunked {} } trace reader ∧
        .delivered (.ok []) ∈ trace ∧
        EndsOnlyIf (fun before => ChunkedWire (bytesReceived before)) trace) ∧
      ∃ trace s, Runs (recorded QuicTransportStream.step) ReadsOpen {} trace s ∧
        (.event (.readable none (.data [])), [.lsquic true (.read 4096),
          .lsquic true (.wantread false), .invoked 1 (.read (.ok []))]) ∈ trace ∧
        ∀ record ∈ trace, EndsByFin record := by
  have sized : (run step (fun reader input => decide (reader.NeverEmpty input))
      { source := .stream 2 } readsTwo).any
        (fun last => decide (.delivered (.ok []) ∈ last.2)) = true := by
    decide +kernel
  have chunked : (run step (fun reader input => decide (reader.DecodesInput input))
      { source := .chunked {} } (readsBytes emptyChunked)).any
        (fun last => decide (.delivered (.ok []) ∈ last.2)) = true := by
    decide +kernel
  have quic : (run (recorded QuicTransportStream.step)
      (fun s stimulus => decide (ReadsOpen s stimulus)) {} readsFin).any
        (fun last => decide ((.event (.readable none (.data [])), [.lsquic true (.read 4096),
          .lsquic true (.wantread false), .invoked 1 (.read (.ok []))]) ∈ last.2)) = true := by
    decide +kernel
  refine ⟨?_, ?_, ?_⟩
  · rcases exists_runs_of_run sized with ⟨trace, reader, runs, shows⟩
    exact ⟨trace, reader, runs, shows,
      (truncation_never_completes 2).1 trace reader runs⟩
  · rcases exists_runs_of_run chunked with ⟨trace, reader, runs, shows⟩
    exact ⟨trace, reader, runs, shows,
      (truncation_never_completes 0).2.1 trace reader runs⟩
  · rcases exists_runs_of_run quic with ⟨trace, s, runs, shows⟩
    exact ⟨trace, s, runs, shows, (truncation_never_completes 0).2.2 trace s runs⟩

/-- A body is read from a QUIC stream when the connection is closed. -/
def closedUnderRead : List QuicTransportStream.Stimulus :=
  [.call (.asyncReadSome 4096), .event .close]

open QuicTransportStream in
theorem closedUnderRead_completes :
    ∃ trace s, Runs (recorded QuicTransportStream.step) anyInput {} trace s ∧
      ∃ record ∈ trace, ¬ EndsByFin record := by
  have reached : (run (recorded QuicTransportStream.step) (fun _ _ => true) {}
      closedUnderRead).any (fun last =>
        decide ((.event .close, [.invoked 0 (.read (.error .eof))]) ∈ last.2)) = true := by
    decide +kernel
  rcases exists_runs_any reached with ⟨trace, s, runs, shows⟩
  refine ⟨trace, s, runs, _, shows, ?_⟩
  intro endsByFin
  rcases endsByFin 0 0 (.error .eof) (by simp) rfl with ⟨hset, isRead⟩
  cases isRead

end BodyReader

end ReverseProxy
