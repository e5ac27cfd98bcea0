import ReverseProxy.Codec.ChunkedDecoder

/-!
# Decoding chunked bodies

A consumer reads a `ChunkedBodySource` until it reports the end of the body, with a
buffer of any size for each read and from a stream of any segmentation.  With the
bytes that the stream delivered examined, every chunked body is decoded and the stream
is left behind its last line.  What is accepted in this way is not always a chunked
body: the two bytes behind the data may be any, sizes are read by `strtoul`, and a
stream that ends in the data of a chunk completes the body.
-/

namespace ReverseProxy

open Text

namespace ChunkedBodySource

open BodyReader (lineText chunkSize)

variable {examined : ℕ → UInt8} {source : ChunkedBodySource} {stream : InStream}
  {line rest : Bytes} {capacity : ℕ}

/-! ## What is still to be read -/

/--
The text that the decoder has before it when `remaining` bytes of a chunk are left:
those bytes with the two behind them, and then a text with the given outcome.  Where
the stream may end in the middle of the chunk, `cut` holds.
-/
inductive Pending (cut : Prop) (outcome : Bytes → Bytes → Prop) : ℕ → Bytes → Bytes → Prop where
  | between {text content : Bytes} : outcome text content → Pending cut outcome 0 text content
  | inside {data ending text content : Bytes} : data ≠ [] → ending.length = 2 →
      outcome text content →
      Pending cut outcome data.length (data ++ ending ++ text) (data ++ content)
  | short {remaining : ℕ} {text : Bytes} : cut → text.length < remaining →
      Pending cut outcome remaining text text

variable {outcome : Bytes → Bytes → Prop}

theorem pending_zero_iff {cut : Prop} {text content : Bytes} :
    Pending cut outcome 0 text content ↔ outcome text content := by
  constructor
  · intro pending
    generalize isZero : (0 : ℕ) = remaining at pending
    cases pending with
    | between ends => exact ends
    | inside nonempty _ _ => exact absurd (List.length_eq_zero_iff.mp isZero.symm) nonempty
    | short _ less => omega
  · exact .between

/-- A part of the data in front of what is pending behind it. -/
theorem Pending.part {cut : Prop} {remaining : ℕ} {data text content : Bytes}
    (less : data.length < remaining)
    (pending : Pending cut outcome (remaining - data.length) text content) :
    Pending cut outcome remaining (data ++ text) (data ++ content) := by
  generalize isLeft : remaining - data.length = left at pending
  cases pending with
  | between _ => omega
  | @inside more ending text content nonempty two ends =>
    have whole : remaining = (data ++ more).length := by
      rw [List.length_append]
      omega
    rw [whole, ← List.append_assoc, ← List.append_assoc, ← List.append_assoc]
    exact .inside (by simp [nonempty]) two ends
  | short isCut shorter =>
    refine .short isCut ?_
    rw [List.length_append]
    omega

/-- An outcome that a chunk may come in front of. -/
structure Outcome (cut : Prop) (outcome : Bytes → Bytes → Prop) : Prop where
  cons {chunk : RawChunk} (accepted : chunk.Accepted) {text content : Bytes} :
    outcome text content → outcome (chunk.bytes ++ text) (chunk.data ++ content)
  short (isCut : cut) {line text : Bytes} {size : ℕ} : LF ∉ line → chunkSize line = some size →
    text.length < size → outcome (line ++ LF :: text) text

theorem outcome_takes (rest : Bytes) : Outcome False (Takes rest) where
  cons := fun accepted _ _ taken => taken.cons accepted
  short := False.elim

theorem outcome_truncated : Outcome True Truncated where
  cons := fun accepted _ _ truncated => truncated.cons accepted
  short := fun _ _ text size unbroken isSize less =>
    ⟨[], _, text, size, by simp, unbroken, isSize, less, by simp, by simp⟩

/-- The line of a chunk in front of what is pending in the chunk. -/
theorem Outcome.of_line {cut : Prop} (isOutcome : Outcome cut outcome) {size : ℕ}
    {text content : Bytes} (unbroken : LF ∉ line) (isSize : chunkSize line = some size)
    (positive : 0 < size) (pending : Pending cut outcome size text content) :
    outcome (line ++ LF :: text) content := by
  cases pending with
  | between _ => omega
  | @inside data ending text content nonempty two ends =>
    have accepted : RawChunk.Accepted ⟨line, data, ending⟩ := ⟨unbroken, isSize, nonempty, two⟩
    have taken := isOutcome.cons accepted ends
    simpa [RawChunk.bytes] using taken
  | short isCut less => exact isOutcome.short isCut unbroken isSize less

/-- A piece was delivered: what is pending behind it was pending with it. -/
def Part (remaining : ℕ) (text data : Bytes) (next : BodySource) (text' : Bytes) : Prop :=
  ∃ source', next = .chunked source' ∧ source'.finished = false ∧
    ∀ cut outcome, Outcome cut outcome → ∀ content,
      Pending cut outcome source'.chunkRemaining text' content →
        Pending cut outcome remaining text (data ++ content)

variable {next : BodySource}

theorem Part.of_line {size : ℕ} {text data text' : Bytes} (unbroken : LF ∉ line)
    (isSize : chunkSize line = some size) (positive : 0 < size)
    (part : Part size text data next text') : Part 0 (line ++ LF :: text) data next text' := by
  rcases part with ⟨source', isNext, unfinished, reaches⟩
  refine ⟨source', isNext, unfinished, ?_⟩
  intro cut outcome isOutcome content pending
  exact .between (isOutcome.of_line unbroken isSize positive (reaches cut outcome isOutcome _ pending))

/-! ## Reads inside a chunk -/

variable {stream' : InStream}

/-- Whatever is delivered from a chunk is a part of it, or the stream has ended. -/
theorem part_of_payload (unfinished : source.finished = false) (inChunk : 0 < source.chunkRemaining)
    (positive : 0 < capacity) {data : Bytes}
    (served : serve examined stream (source.readChunkPayload capacity) =
      (next, .ok data, stream')) :
    data ≠ [] ∧ Part source.chunkRemaining stream.bytes data next stream'.bytes ∨
      data = [] ∧ stream.bytes = [] ∧ stream'.bytes = [] := by
  by_cases nothing : stream.bytes = []
  · rcases serve_noPayload inChunk nothing served with ⟨isEmpty, rfl⟩
    exact .inr ⟨isEmpty, nothing, nothing⟩
  rcases serve_payload inChunk positive nothing with ⟨piece, after, nonempty, fits, split, asked⟩
  rw [asked] at served
  left
  split_ifs at served with whole
  · have isSize : source.chunkRemaining = piece.length := by omega
    have skips : { source with chunkRemaining := 0, wait := .crlf 2 piece }.wait =
        .crlf 2 piece := rfl
    by_cases short : after.bytes.length < 2
    · rcases serve_shortCrlf skips short (by omega) le_rfl with ⟨_, _, failed⟩
      rw [failed] at served
      exact absurd served error_ne_ok
    · have isText : after.bytes = after.bytes.take 2 ++ after.bytes.drop 2 :=
        (List.take_append_drop 2 _).symm
      have two : (after.bytes.take 2).length = 2 := by
        rw [List.length_take]
        omega
      rcases serve_crlf skips isText two (by omega) le_rfl with ⟨wait, last, isRest, -, skipped⟩
      rw [skipped] at served
      obtain ⟨rfl, rfl, rfl⟩ := eq_of_ok_eq served
      refine ⟨nonempty, _, rfl, unfinished, ?_⟩
      intro cut outcome _ content pending
      rw [isSize, ← split, isText, ← List.append_assoc, ← isRest]
      exact .inside nonempty two (pending_zero_iff.mp pending)
  · obtain ⟨rfl, rfl, rfl⟩ := eq_of_ok_eq served
    refine ⟨nonempty, _, rfl, unfinished, ?_⟩
    intro cut outcome _ content pending
    rw [← split]
    exact .part (by omega) pending

/-- What is pending in a chunk is delivered piece by piece. -/
theorem exists_piece {content : Bytes} (unfinished : source.finished = false)
    (inChunk : 0 < source.chunkRemaining) (positive : 0 < capacity)
    (pending : Pending False outcome source.chunkRemaining stream.bytes content) :
    ∃ data content' source' stream', data ≠ [] ∧ content = data ++ content' ∧
      serve examined stream (source.readChunkPayload capacity) =
        (.chunked source', .ok data, stream') ∧
      source'.finished = false ∧
      Pending False outcome source'.chunkRemaining stream'.bytes content' := by
  generalize isRemaining : source.chunkRemaining = remaining at pending
  generalize isText : stream.bytes = text at pending
  cases pending with
  | between _ => omega
  | short isCut _ => exact isCut.elim
  | @inside data ending text content nonempty two ends =>
    have present : stream.bytes ≠ [] := by simp [isText, nonempty]
    rcases serve_payload inChunk positive present with
      ⟨piece, after, isPiece, fits, split, asked⟩
    rw [asked]
    rw [isText, List.append_assoc] at split
    split_ifs with whole
    · rcases List.append_inj split (by omega) with ⟨rfl, behind⟩
      have skips : { source with chunkRemaining := 0, wait := .crlf 2 piece }.wait =
          .crlf 2 piece := rfl
      rcases serve_crlf skips behind two (by omega) le_rfl with ⟨wait, last, isRest, -, skipped⟩
      refine ⟨piece, content, _, last, nonempty, rfl, skipped, unfinished, ?_⟩
      rw [isRest]
      exact .between ends
    · have begins : piece <+: data := by
        refine List.prefix_of_prefix_length_le ⟨after.bytes, split⟩
          (List.prefix_append data (ending ++ text)) (by omega)
      rcases begins with ⟨more, rfl⟩
      rw [List.append_assoc] at split
      have isAfter := List.append_cancel_left split
      have isLeft : source.chunkRemaining - piece.length = more.length := by
        rw [isRemaining, List.length_append]
        omega
      have remains : more ≠ [] := by
        rintro rfl
        exact whole isLeft
      refine ⟨piece, more ++ content, _, after, isPiece, by rw [List.append_assoc], rfl,
        unfinished, ?_⟩
      rw [isAfter, isLeft, ← List.append_assoc]
      exact .inside remains two ends

/-! ## Size lines -/

theorem serve_sizeLine (source : ChunkedBodySource) (unbroken : LF ∉ line)
    (isText : stream.bytes = line ++ LF :: rest) (examines : Examines examined stream.bytes) :
    ∃ stream', stream'.bytes = rest ∧
      serve examined stream (source.readLine (.sizeLine capacity)) =
        serve examined stream'
          (onSizeLine { source with sizeLine := lineText line, wait := .sizeLine capacity }
            capacity) := by
  have inLine : InLine { source with sizeLine := [], wait := .sizeLine capacity } :=
    .inl ⟨capacity, rfl⟩
  rcases serve_line inLine unbroken isText examines with ⟨stream', isRest, -, served⟩
  exact ⟨stream', isRest, served⟩

theorem onSizeLine_eq_finish (isLine : source.sizeLine = lineText line)
    (noSize : chunkSize line = none) :
    ∃ source', source.onSizeLine capacity = (source', .deliver (.error .invalidArgument)) := by
  rw [chunkSize, ← isLine] at noSize
  unfold onSizeLine
  simp only [noSize]
  exact ⟨_, rfl⟩

theorem onSizeLine_eq_readLine (isLine : source.sizeLine = lineText line)
    (last : chunkSize line = some 0) :
    ∃ source', source.onSizeLine capacity = readLine source' .trailer := by
  rw [chunkSize, ← isLine] at last
  unfold onSizeLine
  simp only [last]
  exact ⟨_, rfl⟩

theorem onSizeLine_eq_readChunkPayload {size : ℕ} (isLine : source.sizeLine = lineText line)
    (isSize : chunkSize line = some size) (positive : 0 < size) :
    ∃ source' : ChunkedBodySource, source'.chunkRemaining = size ∧ source'.finished = source.finished ∧
      source.onSizeLine capacity = source'.readChunkPayload capacity := by
  rw [chunkSize, ← isLine] at isSize
  unfold onSizeLine
  simp only [isSize]
  cases size with
  | zero => omega
  | succ size => exact ⟨{ source with sizeLine := [], chunkRemaining := size + 1 }, rfl, rfl, rfl⟩

/-! ## The reads of a consumer -/

theorem readSome_eq_readLine (unfinished : source.finished = false)
    (between : source.chunkRemaining = 0) :
    BodySource.readSome examined capacity (.chunked source) stream =
      serve examined stream (source.readLine (.sizeLine capacity)) := by
  rw [readSome_eq_serve, asyncReadSome, if_neg (by simp [unfinished]), if_pos between]

theorem readSome_eq_readChunkPayload (unfinished : source.finished = false)
    (inChunk : 0 < source.chunkRemaining) :
    BodySource.readSome examined capacity (.chunked source) stream =
      serve examined stream (source.readChunkPayload capacity) := by
  rw [readSome_eq_serve, asyncReadSome, if_neg (by simp [unfinished]), if_neg inChunk.ne']

/-- What a read may report: a part of the body, its end, or the end of the stream in a chunk. -/
def Reports (remaining : ℕ) (text data : Bytes) (next : BodySource) (text' : Bytes) : Prop :=
  (data ≠ [] ∧ Part remaining text data next text') ∨
    data = [] ∧ (Pending False (Takes text') remaining text [] ∨
      Pending True Truncated remaining text [] ∧ text' = [])

theorem reports_of_readChunkPayload (unfinished : source.finished = false)
    (inChunk : 0 < source.chunkRemaining) (positive : 0 < capacity) {data : Bytes}
    (served : serve examined stream (source.readChunkPayload capacity) =
      (next, .ok data, stream')) :
    Reports source.chunkRemaining stream.bytes data next stream'.bytes := by
  rcases part_of_payload unfinished inChunk positive served with
    part | ⟨isEmpty, nothing, nothing'⟩
  · exact .inl part
  · refine .inr ⟨isEmpty, .inr ⟨?_, nothing'⟩⟩
    rw [nothing]
    exact .short trivial inChunk

/-- What is reported of a chunk is reported of the chunk with its line. -/
theorem Reports.of_line {size : ℕ} {text data text' : Bytes} (unbroken : LF ∉ line)
    (isSize : chunkSize line = some size) (positive : 0 < size)
    (reports : Reports size text data next text') :
    Reports 0 (line ++ LF :: text) data next text' := by
  rcases reports with ⟨nonempty, part⟩ | ⟨isEmpty, taken | ⟨truncated, nothing⟩⟩
  · exact .inl ⟨nonempty, part.of_line unbroken isSize positive⟩
  · have ends := (outcome_takes text').of_line unbroken isSize positive taken
    exact .inr ⟨isEmpty, .inl (.between ends)⟩
  · have ends := outcome_truncated.of_line unbroken isSize positive truncated
    exact .inr ⟨isEmpty, .inr ⟨.between ends, nothing⟩⟩

/-- Behind the line that ends the chunks, the body ends or reading the trailer lines fails. -/
theorem reports_of_trailers (source : ChunkedBodySource) (unbroken : LF ∉ line)
    (last : chunkSize line = some 0) (examines : Examines examined stream.bytes) {data : Bytes}
    (served : serve examined stream (source.readLine .trailer) = (next, .ok data, stream')) :
    Reports 0 (line ++ LF :: stream.bytes) data next stream'.bytes := by
  rcases trailers_of_serve source examines with
    ⟨trailers, blank, rest, lines, ends, isTrailers⟩ | ⟨_, _, fails⟩
  · rcases serve_trailers source lines ends isTrailers examines with ⟨after, isRest, done⟩
    rw [done] at served
    obtain ⟨-, rfl, rfl⟩ := eq_of_ok_eq served
    refine .inr ⟨rfl, .inl (.between ?_)⟩
    refine ⟨⟨[], line, trailers, blank⟩, ⟨by simp, ⟨unbroken, last⟩, lines, ends⟩, ?_, rfl⟩
    simp [RawCoding.bytes, RawCoding.closing, isTrailers, isRest]
  · rw [fails] at served
    exact absurd served error_ne_ok

theorem reports_of_readLine (unfinished : source.finished = false) (positive : 0 < capacity)
    (examines : Examines examined stream.bytes) {data : Bytes}
    (served : serve examined stream (source.readLine (.sizeLine capacity)) =
      (next, .ok data, stream')) : Reports 0 stream.bytes data next stream'.bytes := by
  cases found : stream.bytes.dropInfix? [LF] with
  | none =>
    have inLine : InLine { source with sizeLine := [], wait := .sizeLine capacity } :=
      .inl ⟨capacity, rfl⟩
    rcases serve_brokenLine inLine (dropInfix?_singleton_eq_none_iff.mp found) examines with
      ⟨_, _, fails⟩
    rw [readLine, fails] at served
    exact absurd served error_ne_ok
  | some cut =>
    rcases cut with ⟨line, rest⟩
    rcases dropInfix?_singleton_eq_some_iff.mp found with ⟨split, unbroken⟩
    rcases serve_sizeLine source unbroken split examines with ⟨after, isRest, served'⟩
    rw [served'] at served
    have isLine : { source with
        sizeLine := lineText line, wait := .sizeLine capacity }.sizeLine = lineText line := rfl
    have examines' : Examines examined after.bytes := by
      rw [split] at examines
      rw [isRest]
      exact examines.behind
    rw [split, ← isRest]
    rcases isSize : chunkSize line with _ | size
    · rcases onSizeLine_eq_finish isLine isSize with ⟨source', ends⟩
      rw [ends] at served
      exact absurd served error_ne_ok
    rcases Nat.eq_zero_or_pos size with rfl | inChunk
    · rcases onSizeLine_eq_readLine isLine isSize with ⟨source', asks⟩
      rw [asks] at served
      exact reports_of_trailers source' unbroken isSize examines' served
    · rcases onSizeLine_eq_readChunkPayload isLine isSize inChunk with
        ⟨source', rfl, same, asks⟩
      rw [asks] at served
      exact (reports_of_readChunkPayload (same.trans unfinished) inChunk positive served).of_line
        unbroken isSize inChunk

theorem reports_of_readSome (unfinished : source.finished = false) (positive : 0 < capacity)
    (examines : Examines examined stream.bytes) {data : Bytes}
    (read : BodySource.readSome examined capacity (.chunked source) stream =
      (next, .ok data, stream')) :
    Reports source.chunkRemaining stream.bytes data next stream'.bytes := by
  rcases Nat.eq_zero_or_pos source.chunkRemaining with between | inChunk
  · rw [readSome_eq_readLine unfinished between] at read
    rw [between]
    exact reports_of_readLine unfinished positive examines read
  · rw [readSome_eq_readChunkPayload unfinished inChunk] at read
    exact reports_of_readChunkPayload unfinished inChunk positive read

/-- An accepted text begins with the line that ends the chunks or with the line of a chunk. -/
theorem Takes.cases {text content : Bytes} (taken : Takes rest text content) :
    (∃ (line : Bytes) (trailers : List Bytes) (blank : Bytes),
      (LF ∉ line ∧ chunkSize line = some 0) ∧
      (∀ line ∈ trailers, LF ∉ line ∧ lineText line ≠ []) ∧
      (LF ∉ blank ∧ lineText blank = []) ∧
      text = line ++ LF :: (unlines [LF] trailers ++ (blank ++ LF :: rest)) ∧ content = []) ∨
    ∃ line size text', LF ∉ line ∧ chunkSize line = some size ∧ 0 < size ∧
      text = line ++ LF :: text' ∧ Pending False (Takes rest) size text' content := by
  rcases taken with ⟨⟨chunks, last, trailers, blank⟩, accepted, rfl, rfl⟩
  cases chunks with
  | nil =>
    refine .inl ⟨last, trailers, blank, accepted.last, accepted.trailers, accepted.blank, ?_, rfl⟩
    simp [RawCoding.bytes, RawCoding.closing]
  | cons chunk chunks =>
    rcases List.forall_mem_cons.mp accepted.chunks with ⟨isChunk, later⟩
    have taken : Takes rest (RawCoding.bytes ⟨chunks, last, trailers, blank⟩ ++ rest)
        (RawCoding.content ⟨chunks, last, trailers, blank⟩) :=
      ⟨⟨chunks, last, trailers, blank⟩,
        ⟨later, accepted.last, accepted.trailers, accepted.blank⟩, rfl, rfl⟩
    refine .inr ⟨chunk.line, chunk.data.length, _, isChunk.unbroken, isChunk.size,
      List.length_pos_of_ne_nil isChunk.nonempty, ?_,
      .inside isChunk.nonempty isChunk.ending taken⟩
    simp [RawCoding.bytes, RawCoding.closing, RawChunk.bytes]

/-- A read goes on with a body that is pending: it ends the body or delivers a part of it. -/
def GoesOn (rest content : Bytes) (served : BodySource × ReadResult × InStream) : Prop :=
  (content = [] ∧ ∃ next stream', served = (next, .ok [], stream') ∧ stream'.bytes = rest) ∨
    ∃ data content' source' stream', data ≠ [] ∧ content = data ++ content' ∧
      served = (.chunked source', .ok data, stream') ∧ source'.finished = false ∧
      Pending False (Takes rest) source'.chunkRemaining stream'.bytes content'

theorem goesOn_readLine {content : Bytes} (unfinished : source.finished = false)
    (positive : 0 < capacity) (examines : Examines examined stream.bytes)
    (taken : Takes rest stream.bytes content) :
    GoesOn rest content
      (serve examined stream (source.readLine (.sizeLine capacity))) := by
  rcases taken.cases with ⟨line, trailers, blank, last, lines, ends, isText, rfl⟩ |
    ⟨line, size, text, unbroken, isSize, inChunk, isText, pending⟩
  · rcases serve_sizeLine source last.1 isText examines with ⟨after, isRest, served⟩
    have isLine : { source with
        sizeLine := lineText line, wait := .sizeLine capacity }.sizeLine = lineText line := rfl
    rcases onSizeLine_eq_readLine isLine last.2 with ⟨source', asks⟩
    have examines' : Examines examined after.bytes := by
      rw [isText] at examines
      rw [isRest]
      exact examines.behind
    rcases serve_trailers source' lines ends isRest examines' with ⟨stream', isEnd, done⟩
    rw [served, asks, done]
    exact .inl ⟨rfl, _, stream', rfl, isEnd⟩
  · rcases serve_sizeLine source unbroken isText examines with ⟨after, rfl, served⟩
    have isLine : { source with
        sizeLine := lineText line, wait := .sizeLine capacity }.sizeLine = lineText line := rfl
    rcases onSizeLine_eq_readChunkPayload isLine isSize inChunk with ⟨source', rfl, same, asks⟩
    rcases exists_piece (same.trans unfinished) inChunk positive pending with
      ⟨data, content', next, stream', nonempty, isContent, piece, going⟩
    rw [served, asks, piece]
    exact .inr ⟨data, content', next, stream', nonempty, isContent, rfl, going⟩

theorem goesOn_readSome {content : Bytes} (unfinished : source.finished = false)
    (positive : 0 < capacity) (examines : Examines examined stream.bytes)
    (pending : Pending False (Takes rest) source.chunkRemaining stream.bytes content) :
    GoesOn rest content
      (BodySource.readSome examined capacity (.chunked source) stream) := by
  rcases Nat.eq_zero_or_pos source.chunkRemaining with between | inChunk
  · rw [between, pending_zero_iff] at pending
    rw [readSome_eq_readLine unfinished between]
    exact goesOn_readLine unfinished positive examines pending
  · rw [readSome_eq_readChunkPayload unfinished inChunk]
    exact .inr (exists_piece unfinished inChunk positive pending)

/-! ## Whole bodies -/

/--
A consumer reads until the end of the body is reported, with buffers of the given
capacities; `content` is what it received, and `last` is how the stream is left.
-/
inductive Drains (examined : ℕ → UInt8) :
    List ℕ → BodySource → InStream → Bytes → InStream → Prop where
  | done {capacity : ℕ} {source next : BodySource} {stream last : InStream} :
      BodySource.readSome examined capacity source stream = (next, .ok [], last) →
      Drains examined [capacity] source stream [] last
  | piece {capacity : ℕ} {capacities : List ℕ} {source next : BodySource}
      {stream rest last : InStream} {data content : Bytes} : data ≠ [] →
      BodySource.readSome examined capacity source stream = (next, .ok data, rest) →
      Drains examined capacities next rest content last →
      Drains examined (capacity :: capacities) source stream (data ++ content) last

/-- The reads of the stream that a consumer's reads lead to. -/
def drainReads (examined : ℕ → UInt8) :
    List ℕ → BodySource → InStream → List BodySource.StreamRead
  | [], _, _ => []
  | capacity :: capacities, source, stream =>
    let served := source.readSome examined capacity stream
    source.readReads examined capacity stream ++
      drainReads examined capacities served.1 served.2.2

/-- Reads that all fill their buffers at once leave none to be filled too late. -/
theorem buffersLive_drainReads {prompt : ℕ → Bool} (capacities : List ℕ) (source : BodySource)
    (filled : ∀ left < stream.bytes.length, prompt left = true) :
    BuffersLive prompt (drainReads examined capacities source stream) := by
  induction capacities generalizing source stream with
  | nil =>
    intro read made
    cases made
  | cons capacity capacities ih =>
    intro read made onStack
    rcases List.mem_append.mp made with first | later
    · exact filled _ (BodySource.left_lt_of_mem_readReads first)
    · apply ih (source.readSome examined capacity stream).1 ?_ read later onStack
      intro left less
      exact filled left (less.trans_le (BodySource.suffix_readSome rfl).length_le)

/-- A body begins with a line, the first byte of which is read into an array on the stack. -/
theorem not_buffersLive_of_late {prompt : ℕ → Bool} (late : ∀ left, prompt left = false)
    {capacities : List ℕ} {delivered : Bytes} {last : InStream}
    (drains : Drains examined capacities (.chunked {}) stream delivered last) :
    ¬BuffersLive prompt (drainReads examined capacities (.chunked {}) stream) := by
  have firstLine : ∀ capacity next data rest,
      BodySource.readSome examined capacity (.chunked {}) stream = (next, .ok data, rest) →
        ∃ read ∈ BodySource.readReads examined capacity (.chunked {}) stream,
          read.onStack = true := by
    intro capacity next data rest read
    have inLine : InLine { wait := .sizeLine capacity } := .inl ⟨capacity, rfl⟩
    have asks : BodySource.readReads examined capacity (.chunked {}) stream =
        BodySource.fetchReads examined (.chunked { wait := .sizeLine capacity }) 1 stream := rfl
    cases isText : stream.bytes with
    | nil =>
      -- there is no body in an empty stream
      rw [readSome_eq_readLine rfl rfl, readLine,
        serve_read (InStream.readSome_of_nil isText 1), onRead_nothing_of_inLine inLine] at read
      exact absurd read error_ne_ok
    | cons byte text =>
      rcases InStream.exists_readSome_one isText with ⟨stream', first, -, -⟩
      refine ⟨⟨true, stream'.bytes.length⟩, ?_, rfl⟩
      rw [asks]
      apply BodySource.firstRead_subset_fetchReads
      rw [BodySource.firstRead, first]
      exact List.mem_singleton.mpr rfl
  intro live
  have isLate : ∀ capacity capacities' next data rest,
      capacities = capacity :: capacities' →
        BodySource.readSome examined capacity (.chunked {}) stream = (next, .ok data, rest) →
          False := by
    rintro capacity capacities' next data rest rfl read
    rcases firstLine capacity next data rest read with ⟨made, isMade, onStack⟩
    have filled := live made (List.mem_append_left _ isMade) onStack
    rw [late] at filled
    cases filled
  cases drains with
  | done read => exact isLate _ _ _ _ _ rfl read
  | piece nonempty read drains => exact isLate _ _ _ _ _ rfl read

/-- A pending body is read to its end, whatever the capacities are. -/
theorem exists_drains {content : Bytes} {capacity : ℕ → ℕ} (positive : ∀ index, 0 < capacity index)
    (unfinished : source.finished = false) (examines : Examines examined stream.bytes)
    (pending : Pending False (Takes rest) source.chunkRemaining stream.bytes content) :
    ∃ count last, Drains examined ((List.range count).map capacity) (.chunked source) stream
      content last ∧ last.bytes = rest := by
  induction sameSize : content.length using Nat.strong_induction_on
    generalizing source stream content capacity with
  | _ size ih =>
    rcases goesOn_readSome unfinished (positive 0) examines pending with
      ⟨rfl, next, last, read, isRest⟩ |
      ⟨data, content', next, after, nonempty, rfl, read, unfinished', pending'⟩
    · exact ⟨1, last, .done read, isRest⟩
    · have shorter : content'.length < size := by
        have := List.length_pos_of_ne_nil nonempty
        rw [← sameSize, List.length_append]
        omega
      have positive' : ∀ index, 0 < (capacity ∘ Nat.succ) index := fun index => positive _
      have examines' := examines.suffix (BodySource.suffix_readSome read)
      rcases ih _ shorter positive' unfinished' examines' pending' rfl with
        ⟨count, last, drains, isRest⟩
      refine ⟨count + 1, last, ?_, isRest⟩
      rw [List.range_succ_eq_map, List.map_cons, List.map_map]
      exact .piece nonempty read drains

theorem Takes.exists_drains {content : Bytes} {capacity : ℕ → ℕ}
    (taken : Takes rest stream.bytes content) (positive : ∀ index, 0 < capacity index)
    (examines : Examines examined stream.bytes) :
    ∃ count last, Drains examined ((List.range count).map capacity) (.chunked {}) stream
      content last ∧ last.bytes = rest :=
  ChunkedBodySource.exists_drains positive rfl examines (.between taken)

/-- What is read to its end was accepted, or the stream has ended in a chunk. -/
theorem Drains.sound {capacities : List ℕ} {delivered : Bytes} {last : InStream}
    (drains : Drains examined capacities (.chunked source) stream delivered last)
    (positive : ∀ capacity ∈ capacities, 0 < capacity) (unfinished : source.finished = false)
    (examines : Examines examined stream.bytes) :
    Pending False (Takes last.bytes) source.chunkRemaining stream.bytes delivered ∨
      Pending True Truncated source.chunkRemaining stream.bytes delivered ∧ last.bytes = [] := by
  generalize isSource : BodySource.chunked source = start at drains
  induction drains generalizing source with
  | done read =>
    subst isSource
    have reports := reports_of_readSome unfinished (positive _ List.mem_cons_self) examines read
    rcases reports with ⟨nonempty, -⟩ | ⟨-, ends⟩
    · exact absurd rfl nonempty
    · exact ends
  | piece nonempty read _ ih =>
    subst isSource
    rw [List.forall_mem_cons] at positive
    have reports := reports_of_readSome unfinished positive.1 examines read
    rcases reports with ⟨-, next, rfl, unfinished', reaches⟩ | ⟨isEmpty, -⟩
    · have examines' := examines.suffix (BodySource.suffix_readSome read)
      rcases ih positive.2 unfinished' examines' rfl with taken | ⟨cut, nothing⟩
      · exact .inl (reaches _ _ (outcome_takes _) _ taken)
      · exact .inr ⟨reaches _ _ outcome_truncated _ cut, nothing⟩
    · exact absurd isEmpty nonempty

/-- When no line feed is ever examined, the end of the body is never reported. -/
theorem not_drains_of_unended (unended : ∀ left, examined left ≠ LF) (capacities : List ℕ)
    (delivered : Bytes) (last : InStream) :
    ¬Drains examined capacities (.chunked {}) stream delivered last := by
  have fails : ∀ capacity, ∃ next stream',
      BodySource.readSome examined capacity (.chunked {}) stream = (next, .error .eof, stream') := by
    intro capacity
    have inLine : InLine { wait := .sizeLine capacity } := .inl ⟨capacity, rfl⟩
    rw [readSome_eq_readLine rfl rfl]
    exact serve_unendedLine inLine fun left _ => unended left
  intro drains
  cases drains with
  | @done capacity _ _ _ _ read =>
    rcases fails capacity with ⟨_, _, failed⟩
    rw [read] at failed
    exact absurd failed.symm error_ne_ok
  | @piece capacity _ _ _ _ _ _ _ _ _ read _ =>
    rcases fails capacity with ⟨_, _, failed⟩
    rw [read] at failed
    exact absurd failed.symm error_ne_ok

/--
A chunked body is decoded and the stream left behind it if each byte that is examined is the
one that was delivered and each read of the stream fills its buffer before it returns; then
no array of the decoder is written to when its function has returned.  No body is decoded when
no LF is examined, nor without such a write when the buffers are never filled in time.
-/
theorem chunkedCoding_drains {coded body more : Bytes} {capacity : ℕ → ℕ} {prompt : ℕ → Bool}
    (isCoding : Rfc9112.ChunkedCoding (2 ^ 64) coded body) (isText : stream.bytes = coded ++ more)
    (positive : ∀ index, 0 < capacity index) :
    (Examines examined stream.bytes → (∀ left < stream.bytes.length, prompt left = true) →
      ∃ count last, Drains examined ((List.range count).map capacity) (.chunked {}) stream body last ∧
        BuffersLive prompt
          (drainReads examined ((List.range count).map capacity) (.chunked {}) stream) ∧
        last.bytes = more) ∧
    ((∀ left, examined left ≠ LF) → ∀ capacities delivered last,
      ¬Drains examined capacities (.chunked {}) stream delivered last) ∧
    ((∀ left, prompt left = false) → ∀ capacities delivered last,
      Drains examined capacities (.chunked {}) stream delivered last →
        ¬BuffersLive prompt (drainReads examined capacities (.chunked {}) stream)) := by
  rcases chunkedCoding_iff.mp isCoding with ⟨coding, wellFormed, rfl, rfl⟩
  have taken : Takes more stream.bytes coding.content :=
    ⟨coding, wellFormed.accepted, isText, rfl⟩
  refine ⟨?_, not_drains_of_unended, ?_⟩
  · intro examines filled
    rcases taken.exists_drains positive examines with ⟨count, last, drains, isRest⟩
    exact ⟨count, last, drains, buffersLive_drainReads _ _ filled, isRest⟩
  · intro late capacities delivered last drains
    exact not_buffersLive_of_late late drains

/-- Examines what the stream delivers. -/
def examinedIn (bytes : Bytes) (left : ℕ) : UInt8 :=
  bytes.reverse.getD left 0

theorem examines_examinedIn (bytes : Bytes) : Examines (examinedIn bytes) bytes := by
  rintro before byte after rfl
  simp [examinedIn, List.getD_eq_getElem?_getD]

/-- `hello` in two chunks. -/
def helloCoding : RawCoding :=
  ⟨[⟨ascii "2\r", ascii "he", crlf⟩, ⟨ascii "3\r", ascii "llo", crlf⟩], ascii "0\r", [], [CR]⟩

theorem helloCoding_wellFormed : helloCoding.WellFormed := by
  have sized : ∀ numeral size, Rfc9112.hexNumber? numeral = some size →
      SizeLine (numeral ++ [CR]) size :=
    fun numeral size number => ⟨numeral, [], by simp, number, .nil⟩
  refine ⟨?_, sized (ascii "0") 0 (by decide), by simp [helloCoding], rfl⟩
  rw [helloCoding, List.forall_mem_cons, List.forall_mem_singleton]
  exact ⟨⟨sized (ascii "2") 2 (by decide), by decide, by decide, rfl⟩,
    ⟨sized (ascii "3") 3 (by decide), by decide, by decide, rfl⟩⟩

/-- It arrives in one piece. -/
def helloStream : InStream :=
  ⟨[⟨helloCoding.bytes, by decide⟩], .fin⟩

theorem helloCoding_coded : Rfc9112.ChunkedCoding (2 ^ 64) helloCoding.bytes (ascii "hello") :=
  chunkedCoding_iff.mpr ⟨helloCoding, helloCoding_wellFormed, rfl, rfl⟩

theorem helloCoding_drains :
    ∃ count last, Drains (examinedIn helloStream.bytes) ((List.range count).map fun _ => 1)
        (.chunked {}) helloStream (ascii "hello") last ∧
      BuffersLive (fun _ => true) (drainReads (examinedIn helloStream.bytes)
        ((List.range count).map fun _ => 1) (.chunked {}) helloStream) ∧ last.bytes = [] :=
  (chunkedCoding_drains helloCoding_coded rfl fun _ => Nat.one_pos).1 (examines_examinedIn _)
    fun _ _ => rfl

/--
With the byte zero examined in place of those delivered, a chunked body is not decoded; and
with reads that fill their buffers later, it is not without a write to a dead array.
-/
theorem helloCoding_not_drained :
    Rfc9112.ChunkedCoding (2 ^ 64) helloStream.bytes (ascii "hello") ∧
      (∀ capacities delivered last,
        ¬Drains (fun _ => 0) capacities (.chunked {}) helloStream delivered last) ∧
      ∀ capacities delivered last,
        Drains (examinedIn helloStream.bytes) capacities (.chunked {}) helloStream delivered last →
          ¬BuffersLive (fun _ => false)
            (drainReads (examinedIn helloStream.bytes) capacities (.chunked {}) helloStream) := by
  refine ⟨helloCoding_coded, not_drains_of_unended ?_, ?_⟩
  · intro _
    decide
  · intro capacities delivered last drains
    exact not_buffersLive_of_late (fun _ => rfl) drains

/-- What was accepted is a chunked body exactly when its parts are well-formed. -/
theorem RawCoding.Accepted.coded_iff {coding : RawCoding} (accepted : coding.Accepted) :
    Rfc9112.ChunkedCoding (2 ^ 64) coding.bytes coding.content ↔ coding.WellFormed := by
  constructor
  · intro coded
    rcases chunkedCoding_iff.mp coded with ⟨coding', wellFormed, same, -⟩
    have behind : coding'.bytes ++ [] = coding.bytes ++ [] := by rw [same]
    rw [← (wellFormed.accepted.eq_of_append_eq accepted behind).1]
    exact wellFormed
  · intro wellFormed
    exact chunkedCoding_iff.mpr ⟨coding, wellFormed, rfl, rfl⟩

theorem Truncated.not_coded {text content : Bytes} (truncated : Truncated text content) :
    ¬Rfc9112.ChunkedCoding (2 ^ 64) text content := by
  intro coded
  rcases chunkedCoding_iff.mp coded with ⟨coding, wellFormed, rfl, -⟩
  have taken : Takes [] coding.bytes coding.content :=
    ⟨coding, wellFormed.accepted, (List.append_nil _).symm, rfl⟩
  exact truncated.not_takes taken

/--
What was consumed when the end of the body is reported: an accepted coding, which is a
chunked body exactly when its parts are well-formed, or a text that ends in a chunk.
-/
theorem coded_iff_of_drains {capacities : List ℕ} {delivered : Bytes} {last : InStream}
    (drains : Drains examined capacities (.chunked {}) stream delivered last)
    (positive : ∀ capacity ∈ capacities, 0 < capacity)
    (examines : Examines examined stream.bytes) :
    ∃ consumed, stream.bytes = consumed ++ last.bytes ∧
      ((∃ coding : RawCoding, coding.Accepted ∧ consumed = coding.bytes ∧
          delivered = coding.content ∧
          (Rfc9112.ChunkedCoding (2 ^ 64) consumed delivered ↔ coding.WellFormed)) ∨
        Truncated consumed delivered ∧ ¬Rfc9112.ChunkedCoding (2 ^ 64) consumed delivered) := by
  rcases drains.sound positive rfl examines with taken | ⟨truncated, nothing⟩
  · rcases pending_zero_iff.mp taken with ⟨coding, accepted, isText, rfl⟩
    exact ⟨coding.bytes, isText, .inl ⟨coding, accepted, rfl, rfl, accepted.coded_iff⟩⟩
  · have cut := pending_zero_iff.mp truncated
    exact ⟨stream.bytes, by simp [nothing], .inr ⟨cut, cut.not_coded⟩⟩

theorem coded_iff_of_drains_helloCoding :
    ∃ count delivered last, Drains (examinedIn helloStream.bytes)
        ((List.range count).map fun _ => 4) (.chunked {}) helloStream delivered last ∧
      ∃ consumed, helloStream.bytes = consumed ++ last.bytes ∧
        ((∃ coding : RawCoding, coding.Accepted ∧ consumed = coding.bytes ∧
            delivered = coding.content ∧
            (Rfc9112.ChunkedCoding (2 ^ 64) consumed delivered ↔ coding.WellFormed)) ∨
          Truncated consumed delivered ∧
            ¬Rfc9112.ChunkedCoding (2 ^ 64) consumed delivered) := by
  have taken : Takes [] helloStream.bytes helloCoding.content :=
    ⟨helloCoding, helloCoding_wellFormed.accepted, rfl, rfl⟩
  have examines := examines_examinedIn helloStream.bytes
  have positive : ∀ index : ℕ, 0 < (fun _ => 4 : ℕ → ℕ) index := fun _ => Nat.succ_pos _
  rcases taken.exists_drains positive examines with
    ⟨count, last, drains, -⟩
  refine ⟨count, _, last, drains, coded_iff_of_drains drains ?_ examines⟩
  simp

/-- Data that is not followed by CRLF. -/
def unendedCoding : RawCoding :=
  ⟨[⟨ascii "5\r", ascii "hello", ascii "XY"⟩], ascii "0\r", [], [CR]⟩

theorem unendedCoding_accepted : unendedCoding.Accepted := by
  refine ⟨?_, by decide, by simp [unendedCoding], by decide⟩
  rw [unendedCoding, List.forall_mem_singleton]
  exact ⟨by decide, by decide, by decide, by decide⟩

/-- It arrives in one piece. -/
def unendedStream : InStream :=
  ⟨[⟨unendedCoding.bytes, by decide⟩], .fin⟩

/-- The whole text is consumed and the end of the body is reported, with any buffers. -/
theorem unendedCoding_completes :
    ∃ count last, Drains (examinedIn unendedStream.bytes) ((List.range count).map fun _ => 16)
        (.chunked {}) unendedStream (ascii "hello") last ∧ last.bytes = [] ∧
      unendedStream.bytes = ascii "5\r\nhelloXY0\r\n\r\n" ∧
      ¬Rfc9112.ChunkedCoding (2 ^ 64) unendedStream.bytes (ascii "hello") := by
  have taken : Takes [] unendedStream.bytes (ascii "hello") :=
    ⟨unendedCoding, unendedCoding_accepted, rfl, rfl⟩
  have examines := examines_examinedIn unendedStream.bytes
  have positive : ∀ index : ℕ, 0 < (fun _ => 16 : ℕ → ℕ) index := fun _ => Nat.succ_pos _
  rcases taken.exists_drains positive examines with
    ⟨count, last, drains, isRest⟩
  refine ⟨count, last, drains, isRest, by decide, ?_⟩
  intro coded
  have wellFormed := unendedCoding_accepted.coded_iff.mp coded
  have ending := (wellFormed.chunks _ List.mem_cons_self).ending
  exact absurd ending (by decide)

end ChunkedBodySource

end ReverseProxy
