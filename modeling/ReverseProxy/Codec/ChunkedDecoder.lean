import ReverseProxy.Codec.ChunkedText
import ReverseProxy.Codec.Pump

/-!
# The reads of the chunked decoder

`ChunkedBodySource` over a stream of any segmentation, read with buffers of any size.
The decoder is followed read by read: a line, a part of the data, the two bytes behind
it, the trailer lines.  Where a line is read, the byte that `read_line_byte` examines
is taken to be the byte that the stream delivered (`Examines`).
-/

namespace ReverseProxy

open Text

/-- The byte examined with so many bytes left is the one that the stream has delivered. -/
def Examines (examined : ℕ → UInt8) (bytes : Bytes) : Prop :=
  ∀ before byte after, bytes = before ++ byte :: after → examined after.length = byte

variable {examined : ℕ → UInt8}

theorem Examines.suffix {after bytes : Bytes} (examines : Examines examined bytes)
    (suffix : after <:+ bytes) : Examines examined after := by
  rcases suffix with ⟨before, rfl⟩
  rintro left byte right rfl
  exact examines (before ++ left) byte right (by simp)

theorem Examines.behind {before after : Bytes} {byte : UInt8}
    (examines : Examines examined (before ++ byte :: after)) : Examines examined after := by
  exact examines.suffix ⟨before ++ [byte], by simp⟩

theorem Examines.ne_of_notMem {bytes : Bytes} {symbol : UInt8} (examines : Examines examined bytes)
    (absent : symbol ∉ bytes) : ∀ left < bytes.length, examined left ≠ symbol := by
  intro left less isSymbol
  have index : bytes.length - 1 - left < bytes.length := by omega
  have split : bytes = bytes.take (bytes.length - 1 - left) ++
      bytes[bytes.length - 1 - left] :: bytes.drop (bytes.length - 1 - left + 1) := by
    rw [List.getElem_cons_drop, List.take_append_drop]
  have isByte := examines _ _ _ split
  rw [List.length_drop, show bytes.length - (bytes.length - 1 - left + 1) = left by omega,
    isSymbol] at isByte
  exact absent (isByte ▸ List.getElem_mem index)

variable {stream : InStream} {capacity : ℕ}

namespace InStream

theorem readSome_of_nil (nothing : stream.bytes = []) (capacity : ℕ) :
    stream.readSome capacity = (stream.ending.result, stream) := by
  rcases stream with ⟨segments, ending⟩
  cases segments with
  | nil => rfl
  | cons segment later =>
    rw [bytes_cons, List.append_eq_nil_iff] at nothing
    exact absurd nothing.1 segment.nonempty

theorem exists_readSome (present : stream.bytes ≠ []) (positive : 0 < capacity) :
    ∃ data rest, stream.readSome capacity = (.ok data, rest) ∧ data ≠ [] ∧
      data.length ≤ capacity ∧ rest.ending = stream.ending ∧ data ++ rest.bytes = stream.bytes := by
  rcases stream with ⟨segments, ending⟩
  cases segments with
  | nil => exact absurd rfl present
  | cons segment later => exact readSome_cons positive segment later ending

/-- A read into a buffer of one byte returns the next byte. -/
theorem exists_readSome_one {byte : UInt8} {rest : Bytes} (next : stream.bytes = byte :: rest) :
    ∃ stream', stream.readSome 1 = (.ok [byte], stream') ∧ stream'.bytes = rest ∧
      stream'.ending = stream.ending := by
  have nonempty : stream.bytes ≠ [] := by simp [next]
  rcases exists_readSome nonempty Nat.one_pos with
    ⟨data, stream', read, present, short, ending, split⟩
  rcases data with _ | ⟨first, _ | ⟨second, data⟩⟩
  · exact absurd rfl present
  · rw [next] at split
    rcases List.cons.inj split with ⟨rfl, rfl⟩
    exact ⟨stream', read, rfl, ending⟩
  · simp at short

end InStream

theorem BodySource.fetch_of_asks {source source' : BodySource} {capacity capacity' : ℕ}
    {stream rest : InStream} {result : ReadResult}
    (read : stream.readSome capacity = (result, rest))
    (asks : source.onRead (examined rest.bytes.length) result = (source', .read capacity')) :
    source.fetch examined capacity stream = source'.fetch examined capacity' rest := by
  rw [fetch]
  simp only [read]
  split
  · simp_all
  · simp_all

/-- A source reads its stream from its front. -/
theorem BodySource.suffix_fetch (examined : ℕ → UInt8) (source : BodySource) (capacity : ℕ)
    (stream : InStream) : (source.fetch examined capacity stream).2.2.bytes <:+ stream.bytes := by
  fun_induction fetch examined source capacity stream with
  | case1 source capacity stream rest source' result delivers =>
    exact ⟨_, InStream.data_append_of_readSome rfl⟩
  | case2 source capacity stream rest source' capacity' asks ih =>
    exact ih.trans ⟨_, InStream.data_append_of_readSome rfl⟩

theorem BodySource.suffix_readSome {source next : BodySource} {stream rest : InStream}
    {result : ReadResult} (read : source.readSome examined capacity stream = (next, result, rest)) :
    rest.bytes <:+ stream.bytes := by
  rw [readSome] at read
  split at read
  · cases read
    exact List.suffix_rfl
  · rename_i asked capacity' _
    have suffix := suffix_fetch examined asked capacity' stream
    rwa [read] at suffix

/-! ## Buffers -/

/-- What is read into an array on the stack of the source is there when the call returns. -/
def BuffersLive (prompt : ℕ → Bool) (reads : List BodySource.StreamRead) : Prop :=
  ∀ read ∈ reads, read.onStack = true → prompt read.left = true

theorem BodySource.left_lt_of_mem_firstRead {source : BodySource} {read : StreamRead}
    (made : read ∈ source.firstRead capacity stream) : read.left < stream.bytes.length := by
  unfold firstRead at made
  split_ifs at made with nothing
  · cases made
  · rw [List.mem_singleton.mp made]
    exact InStream.length_lt_of_readSome rfl nothing

/-- Each read leaves less of the stream than there was. -/
theorem BodySource.left_lt_of_mem_fetchReads {source : BodySource} {read : StreamRead}
    (made : read ∈ source.fetchReads examined capacity stream) :
    read.left < stream.bytes.length := by
  fun_induction fetchReads examined source capacity stream with
  | case1 source capacity stream rest source' result delivers => exact left_lt_of_mem_firstRead made
  | case2 source capacity stream rest source' capacity' asks ih =>
    rcases List.mem_append.mp made with first | later
    · exact left_lt_of_mem_firstRead first
    · exact (ih later).trans_le (InStream.length_le_of_readSome rfl)

theorem BodySource.left_lt_of_mem_readReads {source : BodySource} {read : StreamRead}
    (made : read ∈ source.readReads examined capacity stream) :
    read.left < stream.bytes.length := by
  unfold readReads at made
  split at made
  · cases made
  · exact left_lt_of_mem_fetchReads made

theorem BodySource.firstRead_subset_fetchReads (examined : ℕ → UInt8) (source : BodySource)
    (capacity : ℕ) (stream : InStream) :
    source.firstRead capacity stream ⊆ source.fetchReads examined capacity stream := by
  rw [fetchReads]
  split
  · exact List.Subset.refl _
  · exact List.subset_append_left _ _

namespace ChunkedBodySource

open BodyReader (lineText chunkSize lineText_append onRead_sizeLine onRead_trailer onRead_payload
  onRead_payload_error onRead_crlf)

/-! ## Single reads -/

/-- Goes on with a step of the decoder until it delivers something. -/
def serve (examined : ℕ → UInt8) (stream : InStream) :
    ChunkedBodySource × BodyStep → BodySource × ReadResult × InStream
  | (source, .deliver result) => (.chunked source, result, stream)
  | (source, .read capacity) => BodySource.fetch examined (.chunked source) capacity stream

theorem eq_of_ok_eq {next next' : BodySource} {data data' : Bytes} {after after' : InStream}
    (same : (next, ReadResult.ok data, after) = (next', .ok data', after')) :
    next = next' ∧ data = data' ∧ after = after' := by
  simpa using same

theorem error_ne_ok {next next' : BodySource} {ec : ErrorCode} {data : Bytes}
    {after after' : InStream} : (next, ReadResult.error ec, after) ≠ (next', .ok data, after') := by
  simp

theorem readSome_eq_serve (examined : ℕ → UInt8) (capacity : ℕ) (source : ChunkedBodySource)
    (stream : InStream) :
    BodySource.readSome examined capacity (.chunked source) stream =
      serve examined stream (source.asyncReadSome capacity) := by
  rw [BodySource.readSome, BodySource.asyncReadSome]
  rcases source.asyncReadSome capacity with ⟨next, result | capacity⟩
  · rfl
  · rfl

theorem serve_read {source : ChunkedBodySource} {stream rest : InStream} {result : ReadResult}
    (read : stream.readSome capacity = (result, rest)) :
    serve examined stream (source, .read capacity) =
      serve examined rest (source.onRead (examined rest.bytes.length) result) := by
  rcases asks : source.onRead (examined rest.bytes.length) result with ⟨next, result | capacity⟩
  · exact BodySource.fetch_of_deliver read (by rw [BodySource.onRead, asks])
  · exact BodySource.fetch_of_asks read (by rw [BodySource.onRead, asks])

/-! ## Lines -/

variable {examined : ℕ → UInt8} {source : ChunkedBodySource} {stream : InStream}
  {line rest : Bytes} {capacity : ℕ}

/-- The decoder waits for the next byte of a line. -/
def InLine (source : ChunkedBodySource) : Prop :=
  (∃ capacity, source.wait = .sizeLine capacity) ∨ source.wait = .trailer

/-- What is done at the end of a line. -/
def endLine (source : ChunkedBodySource) : ChunkedBodySource × BodyStep :=
  match source.wait with
  | .sizeLine capacity => source.onSizeLine capacity
  | _ => source.onTrailer

theorem onRead_of_inLine (inLine : source.InLine) (byte delivered : UInt8) :
    source.onRead byte (.ok [delivered]) =
      if byte = LF then source.endLine else source.pushLineByte byte := by
  rcases inLine with ⟨capacity, isWait⟩ | isWait
  · rw [onRead_sizeLine isWait, endLine, isWait]
  · rw [onRead_trailer isWait, endLine, isWait]

theorem onRead_nothing_of_inLine (inLine : source.InLine) (ending : StreamEnd) (byte : UInt8) :
    source.onRead byte ending.result = source.finish (.error .eof) := by
  unfold onRead
  rcases inLine with ⟨capacity, isWait⟩ | isWait
  · rw [isWait]
    cases ending <;> rfl
  · rw [isWait]
    cases ending <;> rfl

/-- One byte of a line is read and is examined. -/
theorem serve_lineByte (inLine : source.InLine) (examines : Examines examined stream.bytes)
    {byte : UInt8} (next : stream.bytes = byte :: rest) :
    ∃ stream', stream'.bytes = rest ∧ stream'.ending = stream.ending ∧
      serve examined stream (source, .read 1) =
        serve examined stream' (if byte = LF then source.endLine else source.pushLineByte byte) := by
  rcases InStream.exists_readSome_one next with ⟨stream', read, isRest, ending⟩
  have delivered : examined stream'.bytes.length = byte :=
    examines [] byte stream'.bytes (by rw [next, isRest, List.nil_append])
  refine ⟨stream', isRest, ending, ?_⟩
  rw [serve_read read, onRead_of_inLine inLine, delivered]

theorem lineText_cons (byte : UInt8) (line : Bytes) :
    lineText (byte :: line) = if byte = CR then lineText line else byte :: lineText line := by
  by_cases isCr : byte = CR
  · simp [lineText, isCr]
  · simp [lineText, isCr]

/-- A line is read to its line feed and kept without its CRs. -/
theorem serve_line (inLine : source.InLine) (unbroken : LF ∉ line)
    (isText : stream.bytes = line ++ LF :: rest) (examines : Examines examined stream.bytes) :
    ∃ stream', stream'.bytes = rest ∧ stream'.ending = stream.ending ∧
      serve examined stream (source, .read 1) =
        serve examined stream'
          (endLine { source with sizeLine := source.sizeLine ++ lineText line }) := by
  induction line generalizing source stream with
  | nil =>
    rcases serve_lineByte inLine examines isText with ⟨stream', isRest, ending, served⟩
    refine ⟨stream', isRest, ending, ?_⟩
    rw [served, if_pos rfl]
    simp [lineText]
  | cons byte line ih =>
    rw [List.mem_cons, not_or] at unbroken
    rcases serve_lineByte inLine examines isText with ⟨stream', isRest, ending, served⟩
    rw [if_neg (Ne.symm unbroken.1)] at served
    have pushed : (source.pushLineByte byte).1.InLine := inLine
    have examines' : Examines examined stream'.bytes := by
      rw [isText] at examines
      rw [isRest]
      exact examines.suffix (List.suffix_cons _ _)
    rcases ih pushed unbroken.2 isRest examines' with ⟨stream'', isRest', ending', served'⟩
    refine ⟨stream'', isRest', ending'.trans ending, ?_⟩
    have kept : (source.pushLineByte byte).1.sizeLine ++ lineText line =
        source.sizeLine ++ lineText (byte :: line) := by
      rw [lineText_cons, pushLineByte]
      split_ifs <;> simp
    rw [served]
    rw [kept] at served'
    exact served'

/-- A line in which no line feed is examined is an error. -/
theorem serve_unendedLine (inLine : source.InLine)
    (unended : ∀ left < stream.bytes.length, examined left ≠ LF) :
    ∃ source' stream', serve examined stream (source, .read 1) =
      (source', .error .eof, stream') := by
  induction isText : stream.bytes generalizing source stream with
  | nil =>
    rw [serve_read (InStream.readSome_of_nil isText 1), onRead_nothing_of_inLine inLine]
    exact ⟨_, _, rfl⟩
  | cons byte text ih =>
    rcases InStream.exists_readSome_one isText with ⟨stream', read, isRest, -⟩
    rw [isText, List.length_cons] at unended
    have notLf : examined stream'.bytes.length ≠ LF := unended _ (by rw [isRest]; omega)
    have pushed : (source.pushLineByte (examined stream'.bytes.length)).1.InLine := inLine
    rw [serve_read read, onRead_of_inLine inLine, if_neg notLf]
    refine ih pushed ?_ isRest
    intro left less
    rw [isRest] at less
    exact unended left (by omega)

/-- A line that never ends is an error. -/
theorem serve_brokenLine (inLine : source.InLine) (unbroken : LF ∉ stream.bytes)
    (examines : Examines examined stream.bytes) :
    ∃ source' stream', serve examined stream (source, .read 1) =
      (source', .error .eof, stream') :=
  serve_unendedLine inLine (examines.ne_of_notMem unbroken)

/-! ## Trailer lines -/

/-- A line that is not empty is skipped, and one that is ends the body. -/
theorem serve_trailer (source : ChunkedBodySource) (unbroken : LF ∉ line)
    (isText : stream.bytes = line ++ LF :: rest) (examines : Examines examined stream.bytes) :
    ∃ stream', stream'.bytes = rest ∧ stream'.ending = stream.ending ∧
      serve examined stream (source.readLine .trailer) =
        if lineText line = [] then
          (.chunked { source with sizeLine := [], wait := .trailer, finished := true }, .ok [],
            stream')
        else serve examined stream' (source.readLine .trailer) := by
  have inLine : InLine { source with sizeLine := [], wait := .trailer } := .inr rfl
  rcases serve_line inLine unbroken isText examines with ⟨stream', isRest, ending, served⟩
  refine ⟨stream', isRest, ending, ?_⟩
  rw [readLine, served, endLine, onTrailer]
  simp only [List.nil_append]
  split_ifs with empty
  · rw [empty]
    rfl
  · rfl

/-- Trailer lines are skipped up to the one that ends them. -/
theorem serve_trailers (source : ChunkedBodySource) {trailers : List Bytes} {blank : Bytes}
    (lines : ∀ line ∈ trailers, LF ∉ line ∧ lineText line ≠ [])
    (ends : LF ∉ blank ∧ lineText blank = [])
    (isText : stream.bytes = unlines [LF] trailers ++ (blank ++ LF :: rest))
    (examines : Examines examined stream.bytes) :
    ∃ stream', stream'.bytes = rest ∧
      serve examined stream (source.readLine .trailer) =
        (.chunked { source with sizeLine := [], wait := .trailer, finished := true }, .ok [],
          stream') := by
  induction trailers generalizing stream with
  | nil =>
    rcases serve_trailer source ends.1 isText examines with ⟨stream', isRest, -, served⟩
    rw [if_pos ends.2] at served
    exact ⟨stream', isRest, served⟩
  | cons line trailers ih =>
    rw [List.forall_mem_cons] at lines
    have split : stream.bytes = line ++ LF :: (unlines [LF] trailers ++ (blank ++ LF :: rest)) := by
      simpa [unlines] using isText
    rcases serve_trailer source lines.1.1 split examines with ⟨stream', isRest, -, served⟩
    rw [if_neg lines.1.2] at served
    rw [served]
    refine ih lines.2 isRest ?_
    rw [split] at examines
    rw [isRest]
    exact examines.behind

/-- The trailer lines are ended by an empty one, or reading them fails. -/
theorem trailers_of_serve (source : ChunkedBodySource) (examines : Examines examined stream.bytes) :
    (∃ (trailers : List Bytes) (blank rest : Bytes),
        (∀ line ∈ trailers, LF ∉ line ∧ lineText line ≠ []) ∧
        (LF ∉ blank ∧ lineText blank = []) ∧
        stream.bytes = unlines [LF] trailers ++ (blank ++ LF :: rest)) ∨
      ∃ source' stream', serve examined stream (source.readLine .trailer) =
        (source', .error .eof, stream') := by
  induction sameSize : stream.bytes.length using Nat.strong_induction_on
    generalizing stream with
  | _ size ih =>
    cases found : stream.bytes.dropInfix? [LF] with
    | none =>
      right
      have inLine : InLine { source with sizeLine := [], wait := .trailer } := .inr rfl
      exact serve_brokenLine inLine (dropInfix?_singleton_eq_none_iff.mp found) examines
    | some cut =>
      rcases cut with ⟨line, rest⟩
      rcases dropInfix?_singleton_eq_some_iff.mp found with ⟨split, unbroken⟩
      by_cases empty : lineText line = []
      · exact .inl ⟨[], line, rest, by simp, ⟨unbroken, empty⟩, by simpa [unlines] using split⟩
      · rcases serve_trailer source unbroken split examines with ⟨stream', isRest, -, served⟩
        rw [if_neg empty] at served
        have shorter : stream'.bytes.length < size := by
          rw [← sameSize, split, isRest]
          simp
          omega
        have examines' : Examines examined stream'.bytes := by
          rw [split] at examines
          rw [isRest]
          exact examines.behind
        rcases ih _ shorter examines' rfl with
          ⟨trailers, blank, rest', lines, ends, isText⟩ | fails
        · refine .inl ⟨line :: trailers, blank, rest', ?_, ends, ?_⟩
          · exact List.forall_mem_cons.mpr ⟨⟨unbroken, empty⟩, lines⟩
          · rw [split, ← isRest, isText]
            simp [unlines]
        · rw [served]
          exact .inr fails

/-! ## The data of a chunk -/

theorem onRead_nothing_of_crlf {count : ℕ} {payload : Bytes}
    (isWait : source.wait = .crlf count payload) (ending : StreamEnd) (byte : UInt8) :
    source.onRead byte ending.result = source.finish (.error .eof) := by
  unfold onRead
  rw [isWait]
  cases ending <;> rfl

/-- The bytes behind the data are skipped, however they are read, and the data is delivered. -/
theorem serve_crlf {count : ℕ} {payload skipped : Bytes} (isWait : source.wait = .crlf count payload)
    (isText : stream.bytes = skipped ++ rest) (all : skipped.length = count)
    (positive : 0 < capacity) (atMost : capacity ≤ count) :
    ∃ wait stream', stream'.bytes = rest ∧ stream'.ending = stream.ending ∧
      serve examined stream (source, .read capacity) =
        (.chunked { source with wait }, .ok payload, stream') := by
  induction sameSize : stream.bytes.length using Nat.strong_induction_on
    generalizing source stream count skipped capacity with
  | _ size ih =>
    have nonempty : stream.bytes ≠ [] := by
      rw [isText]
      intro nothing
      have lengths := congrArg List.length nothing
      simp only [List.length_append, List.length_nil] at lengths
      omega
    rcases InStream.exists_readSome nonempty positive with
      ⟨data, stream', read, present, fits, ending, split⟩
    rcases List.exists_cons_of_ne_nil present with ⟨byte, later, rfl⟩
    rw [List.length_cons] at fits
    rw [serve_read read, onRead_crlf isWait]
    split_ifs with skippedAll
    · have same := List.append_inj (split.trans isText) (by rw [List.length_cons]; omega)
      exact ⟨source.wait, stream', same.2, ending, rfl⟩
    · have begins : byte :: later <+: skipped := by
        refine List.prefix_of_prefix_length_le ⟨stream'.bytes, split⟩ ⟨rest, isText.symm⟩ ?_
        rw [List.length_cons]
        omega
      rcases begins with ⟨more, rfl⟩
      rw [List.append_assoc] at isText
      have isRest := List.append_cancel_left (split.trans isText)
      simp only [List.length_append, List.length_cons] at all
      have shorter : stream'.bytes.length < size := by
        rw [← sameSize, ← split, List.length_append, List.length_cons]
        omega
      have again : { source with wait := .crlf (count - (later.length + 1)) payload }.wait =
          .crlf (count - (later.length + 1)) payload := rfl
      rcases ih _ shorter again isRest (by omega) (by omega) (min_le_left _ 64) rfl with
        ⟨wait, stream'', isRest', ending', served⟩
      exact ⟨wait, stream'', isRest', ending'.trans ending, served⟩

/-- Too few bytes behind the data are an error. -/
theorem serve_shortCrlf {count : ℕ} {payload : Bytes} (isWait : source.wait = .crlf count payload)
    (short : stream.bytes.length < count) (positive : 0 < capacity) (atMost : capacity ≤ count) :
    ∃ source' stream', serve examined stream (source, .read capacity) =
      (source', .error .eof, stream') := by
  induction sameSize : stream.bytes.length using Nat.strong_induction_on
    generalizing source stream count capacity with
  | _ size ih =>
    by_cases nothing : stream.bytes = []
    · rw [serve_read (InStream.readSome_of_nil nothing capacity), onRead_nothing_of_crlf isWait]
      exact ⟨_, _, rfl⟩
    · rcases InStream.exists_readSome nothing positive with
        ⟨data, stream', read, present, fits, -, split⟩
      rcases List.exists_cons_of_ne_nil present with ⟨byte, later, rfl⟩
      have lengths := congrArg List.length split
      rw [List.length_append, List.length_cons] at lengths
      rw [serve_read read, onRead_crlf isWait, if_neg (by omega)]
      have again : { source with wait := .crlf (count - (later.length + 1)) payload }.wait =
          .crlf (count - (later.length + 1)) payload := rfl
      exact ih _ (by omega) again (by omega) (by omega) (min_le_left _ 64) rfl

theorem serve_payload (inChunk : 0 < source.chunkRemaining) (positive : 0 < capacity)
    (present : stream.bytes ≠ []) :
    ∃ data stream', data ≠ [] ∧ data.length ≤ source.chunkRemaining ∧
      data ++ stream'.bytes = stream.bytes ∧
      serve examined stream (source.readChunkPayload capacity) =
        if source.chunkRemaining - data.length = 0 then
          serve examined stream' ({ source with chunkRemaining := 0, wait := .crlf 2 data }, .read 2)
        else
          (.chunked { source with
              chunkRemaining := source.chunkRemaining - data.length, wait := .payload },
            .ok data, stream') := by
  rcases InStream.exists_readSome present
    (show 0 < min capacity source.chunkRemaining by omega) with
    ⟨data, stream', read, nonempty, fits, -, split⟩
  refine ⟨data, stream', nonempty, by omega, split, ?_⟩
  rw [readChunkPayload, serve_read read, onRead_payload rfl]
  split_ifs
  · rfl
  · rfl

theorem serve_noPayload (inChunk : 0 < source.chunkRemaining) (nothing : stream.bytes = [])
    {next : BodySource} {data : Bytes} {stream' : InStream}
    (served : serve examined stream (source.readChunkPayload capacity) =
      (next, .ok data, stream')) : data = [] ∧ stream' = stream := by
  rw [readChunkPayload, serve_read (InStream.readSome_of_nil nothing _)] at served
  cases ending : stream.ending with
  | fin =>
    rw [ending, StreamEnd.result, onRead_payload rfl, List.length_nil, Nat.sub_zero,
      if_neg inChunk.ne'] at served
    rcases eq_of_ok_eq served with ⟨-, isData, isStream⟩
    exact ⟨isData.symm, isStream.symm⟩
  | error ec =>
    rw [ending, StreamEnd.result, onRead_payload_error rfl] at served
    exact absurd served error_ne_ok

end ChunkedBodySource

end ReverseProxy
