import ReverseProxy.Transport.QuicStream

/-!
# The header block handed to lsquic

`QuicTransportStream::async_send_headers` (`transport/quic_transport.cpp`) copies all
names and values into one vector and gives lsquic an array of entries that point into it.
An entry is made while the vector still grows, and holds the address that the vector has
at that time; a vector that outgrows its capacity moves, and older entries would dangle.

`lsxpack_header_set_offset2` is not part of the repository and stays a parameter.  What is
assumed of it is `StoresUpTo`: lengths up to a limit, `LSXPACK_MAX_STRLEN`, are stored as they
are.  Nothing is known about longer names and values.
-/

namespace ReverseProxy

open Text

/-- A `std::vector<char>`, at a numbered place in memory. -/
structure CharVector where
  place : ℕ
  capacity : ℕ
  chars : Bytes
  fits : chars.length ≤ capacity
  deriving DecidableEq

namespace CharVector

/-- A vector without storage. -/
def empty : CharVector where
  place := 0
  capacity := 0
  chars := []
  fits := le_rfl

/-- `reserve` moves the vector if it has to grow. -/
def reserve (vector : CharVector) (count : ℕ) : CharVector :=
  if enough : count ≤ vector.capacity then vector
  else
    { vector with
      place := vector.place + 1
      capacity := count
      fits := vector.fits.trans (by omega) }

/-- `insert` at the end. -/
def insert (vector : CharVector) (text : Bytes) : CharVector :=
  if room : (vector.chars ++ text).length ≤ vector.capacity then
    { vector with chars := vector.chars ++ text, fits := room }
  else
    { place := vector.place + 1
      capacity := max (2 * vector.capacity) (vector.chars ++ text).length
      chars := vector.chars ++ text
      fits := Nat.le_max_right _ _ }

/-- The characters from an offset on, as many as there are. -/
def slice (vector : CharVector) (offset count : ℕ) : Bytes :=
  (vector.chars.drop offset).take count

@[simp]
theorem chars_insert (vector : CharVector) (text : Bytes) :
    (vector.insert text).chars = vector.chars ++ text := by
  unfold insert
  split <;> rfl

theorem place_insert (vector : CharVector) (text : Bytes)
    (room : (vector.chars ++ text).length ≤ vector.capacity) :
    (vector.insert text).place = vector.place ∧
      (vector.insert text).capacity = vector.capacity := by
  rw [insert, dif_pos room]
  exact ⟨rfl, rfl⟩

@[simp]
theorem chars_reserve (vector : CharVector) (count : ℕ) :
    (vector.reserve count).chars = vector.chars := by
  unfold reserve
  split <;> rfl

theorem le_capacity_reserve (vector : CharVector) (count : ℕ) :
    count ≤ (vector.reserve count).capacity := by
  unfold reserve
  split
  · assumption
  · exact le_rfl

end CharVector

/-- What an `lsxpack_header` says: a pointer, and the slices of a name and of a value behind it. -/
structure LsxpackHeader where
  /-- The place that `buf` points to. -/
  buf : ℕ := 0
  nameOffset : ℕ := 0
  nameLen : ℕ := 0
  valOffset : ℕ := 0
  valLen : ℕ := 0
  deriving DecidableEq, Repr

/-- `lsxpack_header_set_offset2`: what an entry says that has been set. -/
abbrev SetOffset2 := (buf nameOffset nameLen valOffset valLen : ℕ) → LsxpackHeader

/-- Lengths up to `maxStrlen`, and offsets into a block of 64 KB, are stored as they are. -/
def StoresUpTo (maxStrlen : ℕ) (setOffset2 : SetOffset2) : Prop :=
  ∀ buf nameOffset nameLen valOffset valLen,
    nameOffset ≤ 64 * 1024 → valOffset ≤ 64 * 1024 → nameLen ≤ maxStrlen → valLen ≤ maxStrlen →
      setOffset2 buf nameOffset nameLen valOffset valLen =
        { buf, nameOffset, nameLen, valOffset, valLen }

namespace LsxpackHeader

/-- What lsquic finds through an entry; `none` if the vector is not there any more. -/
def read (entry : LsxpackHeader) (vector : CharVector) : Option (Bytes × Bytes) :=
  if entry.buf = vector.place then
    some (vector.slice entry.nameOffset entry.nameLen, vector.slice entry.valOffset entry.valLen)
  else none

end LsxpackHeader

namespace QuicTransportStream

variable (setOffset2 : SetOffset2)

/-- The variables of the loop in `async_send_headers`. -/
structure HeaderBlock where
  nameVals : CharVector
  /-- The entries of `arr` set so far. -/
  arr : List LsxpackHeader := []
  off : ℕ := 0
  deriving DecidableEq

namespace HeaderBlock

/-- The body of the loop. -/
def push (block : HeaderBlock) (header : Bytes × Bytes) : HeaderBlock :=
  let lname := lower header.1
  let nameVals := (block.nameVals.insert lname).insert header.2
  { nameVals
    arr := block.arr ++
      [setOffset2 nameVals.place block.off lname.length (block.off + lname.length)
        header.2.length]
    off := block.off + (lname.length + header.2.length) }

/-- The block after the first of the headers, with room for `total` bytes reserved. -/
def fill (total : ℕ) (headers : HeaderList) : HeaderBlock :=
  headers.foldl (push setOffset2) { nameVals := CharVector.empty.reserve total }

end HeaderBlock

/-- The block for a list of headers. -/
def headerBlock (headers : HeaderList) : HeaderBlock :=
  .fill setOffset2 (headerBytes headers) headers

/-- `lsquic_http_headers_t`. -/
structure HttpHeaders where
  count : ℤ
  headers : List LsxpackHeader
  deriving DecidableEq

/-- The array has an element even when there is no header. -/
def httpHeaders (headers : HeaderList) : HttpHeaders where
  count := H3Codec.toInt headers.length
  headers := if headers = [] then [{}] else (headerBlock setOffset2 headers).arr

/-! ## The layout -/

/-- The bytes that the vector is to hold. -/
def blockBytes (headers : HeaderList) : Bytes :=
  headers.flatMap fun header => lower header.1 ++ header.2

@[simp]
theorem length_lower (text : Bytes) : (lower text).length = text.length := by
  simp [lower]

theorem headerBytes_append (headers later : HeaderList) :
    headerBytes (headers ++ later) = headerBytes headers + headerBytes later := by
  simp [headerBytes]

@[simp]
theorem length_blockBytes (headers : HeaderList) :
    (blockBytes headers).length = headerBytes headers := by
  induction headers with
  | nil => rfl
  | cons header headers ih =>
    rw [blockBytes, List.flatMap_cons, List.length_append, ← blockBytes, ih]
    simp [headerBytes]

/-- No name and no value is longer than this. -/
def LengthsUpTo (maxStrlen : ℕ) (headers : HeaderList) : Prop :=
  ∀ header ∈ headers, header.1.length ≤ maxStrlen ∧ header.2.length ≤ maxStrlen

/-- The entry of a header whose name starts at this offset. -/
def entryAt (place off : ℕ) (header : Bytes × Bytes) : LsxpackHeader where
  buf := place
  nameOffset := off
  nameLen := header.1.length
  valOffset := off + header.1.length
  valLen := header.2.length

variable {headers : HeaderList}

namespace HeaderBlock

theorem fill_concat (total : ℕ) (headers : HeaderList) (header : Bytes × Bytes) :
    fill setOffset2 total (headers ++ [header]) =
      (fill setOffset2 total headers).push setOffset2 header := by
  simp [fill]

theorem chars_fill (total : ℕ) (headers : HeaderList) :
    (fill setOffset2 total headers).nameVals.chars = blockBytes headers := by
  induction headers using List.reverseRecOn with
  | nil => simp [fill, blockBytes, CharVector.empty]
  | append_singleton headers header ih =>
    rw [fill_concat]
    simp [push, ih, blockBytes]

theorem off_fill (total : ℕ) (headers : HeaderList) :
    (fill setOffset2 total headers).off = headerBytes headers := by
  induction headers using List.reverseRecOn with
  | nil => rfl
  | append_singleton headers header ih =>
    rw [fill_concat, headerBytes_append]
    simp [push, ih, headerBytes]

theorem place_push (block : HeaderBlock) (header : Bytes × Bytes)
    (room : (block.nameVals.chars ++ lower header.1 ++ header.2).length ≤
      block.nameVals.capacity) :
    (block.push setOffset2 header).nameVals.place = block.nameVals.place ∧
      (block.push setOffset2 header).nameVals.capacity = block.nameVals.capacity := by
  have less : (block.nameVals.chars ++ lower header.1).length ≤ block.nameVals.capacity := by
    rw [List.length_append] at room
    omega
  rcases CharVector.place_insert block.nameVals (lower header.1) less with ⟨place, capacity⟩
  have value := CharVector.place_insert (block.nameVals.insert (lower header.1)) header.2
    (by rw [CharVector.chars_insert, capacity]; exact room)
  exact ⟨value.1.trans place, value.2.trans capacity⟩

/-- While the bytes fit what was reserved, the vector stays where it is. -/
theorem place_fill {total : ℕ} (reserved : headerBytes headers ≤ total) :
    (fill setOffset2 total headers).nameVals.place = (CharVector.empty.reserve total).place ∧
      (fill setOffset2 total headers).nameVals.capacity = (CharVector.empty.reserve total).capacity := by
  induction headers using List.reverseRecOn with
  | nil => exact ⟨rfl, rfl⟩
  | append_singleton headers header ih =>
    have size : headerBytes (headers ++ [header]) =
        headerBytes headers + (header.1.length + header.2.length) := by
      rw [headerBytes_append]
      simp [headerBytes]
    have enough := CharVector.le_capacity_reserve CharVector.empty total
    rcases ih (by omega) with ⟨place, capacity⟩
    have kept := place_push setOffset2 (fill setOffset2 total headers) header (by
      rw [chars_fill, capacity]
      simp only [List.length_append, length_blockBytes, length_lower]
      omega)
    rw [fill_concat]
    exact ⟨kept.1.trans place, kept.2.trans capacity⟩

@[simp]
theorem length_arr_fill (total : ℕ) (headers : HeaderList) :
    (fill setOffset2 total headers).arr.length = headers.length := by
  induction headers using List.reverseRecOn with
  | nil => rfl
  | append_singleton headers header ih =>
    rw [fill_concat]
    simp [push, ih]

variable {setOffset2} {maxStrlen : ℕ}

/-- Each entry stands where the bytes of its header start. -/
theorem arr_fill {total : ℕ} (reserved : headerBytes headers ≤ total)
    (stores : StoresUpTo maxStrlen setOffset2) (small : headerBytes headers ≤ 64 * 1024)
    (short : LengthsUpTo maxStrlen headers) (i : ℕ) :
    (fill setOffset2 total headers).arr[i]? =
      headers[i]?.map
        (entryAt (CharVector.empty.reserve total).place (headerBytes (headers.take i))) := by
  induction headers using List.reverseRecOn with
  | nil => simp [fill]
  | append_singleton headers header ih =>
    have size : headerBytes (headers ++ [header]) =
        headerBytes headers + (header.1.length + header.2.length) := by
      rw [headerBytes_append]
      simp [headerBytes]
    rcases List.forall_mem_append.mp short with ⟨shorter, isShort⟩
    rcases List.forall_mem_singleton.mp isShort with ⟨shortName, shortValue⟩
    have place := (place_fill setOffset2 reserved).1
    rw [fill_concat] at place ⊢
    have pushed : ((fill setOffset2 total headers).push setOffset2 header).arr =
        (fill setOffset2 total headers).arr ++
          [entryAt (CharVector.empty.reserve total).place (headerBytes headers) header] := by
      rw [← place, ← off_fill setOffset2 total headers, push]
      dsimp only
      rw [off_fill, length_lower]
      rw [stores _ _ _ _ _ (by omega) (by omega) shortName shortValue, entryAt]
    rw [pushed]
    rcases lt_trichotomy i headers.length with before | rfl | behind
    · rw [List.getElem?_append_left (by simpa using before),
        List.getElem?_append_left before, List.take_append_of_le_length before.le,
        ih (by omega) (by omega) shorter]
    · rw [List.getElem?_append_right (by simp), List.getElem?_append_right le_rfl]
      simp
    · rw [List.getElem?_eq_none (by simp; omega), List.getElem?_eq_none (by simp; omega)]
      rfl

end HeaderBlock

/-- The entries of a block, and the slices they stand for. -/
structure Laid (headers : HeaderList) (block : HeaderBlock) : Prop where
  count : block.arr.length = headers.length
  /-- Every pointer is good, and leads to the lower-cased name and to the value. -/
  reads : block.arr.map (·.read block.nameVals) = (H3Codec.lowerNames headers).map some
  starts : ∀ entry, block.arr[0]? = some entry → entry.nameOffset = 0
  joined : ∀ (i : ℕ) entry, block.arr[i]? = some entry →
    entry.valOffset = entry.nameOffset + entry.nameLen
  contiguous : ∀ (i : ℕ) entry next, block.arr[i]? = some entry →
    block.arr[i + 1]? = some next → next.nameOffset = entry.valOffset + entry.valLen
  disjoint : ∀ (i j : ℕ) entry later, i < j → block.arr[i]? = some entry →
    block.arr[j]? = some later → entry.valOffset + entry.valLen ≤ later.nameOffset
  inside : ∀ (i : ℕ) entry, block.arr[i]? = some entry →
    entry.valOffset + entry.valLen ≤ block.nameVals.chars.length

theorem headerBytes_take_succ {i : ℕ} {header : Bytes × Bytes}
    (present : headers[i]? = some header) :
    headerBytes (headers.take i) + header.1.length + header.2.length =
      headerBytes (headers.take (i + 1)) := by
  rw [List.take_add_one, present, headerBytes_append, Nat.add_assoc]
  simp [headerBytes]

theorem headerBytes_take_le (headers : HeaderList) {i j : ℕ} (earlier : i ≤ j) :
    headerBytes (headers.take i) ≤ headerBytes (headers.take j) := by
  have starts : headers.take i <+: headers.take j := List.take_prefix_take_left earlier
  rcases starts with ⟨later, split⟩
  rw [← split, headerBytes_append]
  exact Nat.le_add_right _ _

/-- What stands at the place of a header in the vector. -/
theorem slices_of_present {i : ℕ} {header : Bytes × Bytes} (present : headers[i]? = some header) :
    ((blockBytes headers).drop (headerBytes (headers.take i))).take header.1.length =
        lower header.1 ∧
      ((blockBytes headers).drop (headerBytes (headers.take i) + header.1.length)).take
        header.2.length = header.2 := by
  have split : blockBytes headers = blockBytes (headers.take i) ++
      (lower header.1 ++ (header.2 ++ blockBytes (headers.drop (i + 1)))) := by
    rcases List.getElem?_eq_some_iff.mp present with ⟨within, rfl⟩
    have cut : headers = headers.take i ++ headers[i] :: headers.drop (i + 1) := by
      rw [← List.drop_eq_getElem_cons within, List.take_append_drop]
    refine (congrArg blockBytes cut).trans ?_
    simp only [blockBytes, List.flatMap_append, List.flatMap_cons, List.append_assoc]
  have size : headerBytes (headers.take i) = (blockBytes (headers.take i)).length := by simp
  have nameSize : header.1.length = (lower header.1).length := by simp
  refine ⟨?_, ?_⟩
  · rw [split, size, List.drop_left, nameSize, List.take_left]
  · rw [split, size, ← List.drop_drop, List.drop_left, nameSize, List.drop_left, List.take_left]

section Layout

variable {setOffset2} {maxStrlen : ℕ} (stores : StoresUpTo maxStrlen setOffset2)
  {headers : HeaderList} (small : headerBytes headers ≤ 64 * 1024)
  (short : LengthsUpTo maxStrlen headers)

include stores small short

/-- Every entry is made for one of the headers, behind all that come before it. -/
theorem exists_entryAt {i : ℕ} {entry : LsxpackHeader}
    (present : (headerBlock setOffset2 headers).arr[i]? = some entry) :
    ∃ header, headers[i]? = some header ∧
      entry = entryAt (headerBlock setOffset2 headers).nameVals.place
        (headerBytes (headers.take i)) header := by
  have place := (HeaderBlock.place_fill setOffset2 (le_refl (headerBytes headers))).1
  rw [headerBlock, HeaderBlock.arr_fill le_rfl stores small short] at present
  rcases Option.map_eq_some_iff.mp present with ⟨header, isHeader, rfl⟩
  exact ⟨header, isHeader, by rw [headerBlock, place]⟩

/-- A list that fits is laid out as lsquic expects it. -/
theorem laid_headerBlock : Laid headers (headerBlock setOffset2 headers) := by
  have entries := HeaderBlock.arr_fill (le_refl (headerBytes headers)) stores small short
  have place := (HeaderBlock.place_fill setOffset2 (le_refl (headerBytes headers))).1
  have chars := HeaderBlock.chars_fill setOffset2 (headerBytes headers) headers
  constructor
  case count => exact HeaderBlock.length_arr_fill _ _ _
  case reads =>
    apply List.ext_getElem?
    intro i
    rw [List.getElem?_map, headerBlock, entries, Option.map_map, List.getElem?_map,
      H3Codec.lowerNames, List.getElem?_map, Option.map_map]
    rcases present : headers[i]? with _ | header
    · rfl
    · rcases slices_of_present present with ⟨name, value⟩
      simp [LsxpackHeader.read, entryAt, CharVector.slice, place, chars, name, value]
  case starts =>
    intro entry present
    rcases exists_entryAt stores small short present with ⟨header, -, rfl⟩
    rfl
  case joined =>
    intro i entry present
    rcases exists_entryAt stores small short present with ⟨header, -, rfl⟩
    rfl
  case contiguous =>
    intro i entry next present nextPresent
    rcases exists_entryAt stores small short present with ⟨header, isHeader, rfl⟩
    rcases exists_entryAt stores small short nextPresent with ⟨later, -, rfl⟩
    exact (headerBytes_take_succ isHeader).symm
  case disjoint =>
    intro i j entry later earlier present laterPresent
    rcases exists_entryAt stores small short present with ⟨header, isHeader, rfl⟩
    rcases exists_entryAt stores small short laterPresent with ⟨header', -, rfl⟩
    exact (headerBytes_take_succ isHeader).trans_le (headerBytes_take_le headers earlier)
  case inside =>
    intro i entry present
    rcases exists_entryAt stores small short present with ⟨header, isHeader, rfl⟩
    have whole : headerBytes (headers.take (i + 1)) ≤ headerBytes headers := by
      have upTo := headerBytes_take_le headers (Nat.le_max_left (i + 1) headers.length)
      rwa [List.take_of_length_le (Nat.le_max_right (i + 1) headers.length)] at upTo
    rw [headerBlock, chars, length_blockBytes]
    exact (headerBytes_take_succ isHeader).trans_le whole

end Layout

theorem lengthsUpTo_of_small {maxStrlen : ℕ} (small : headerBytes headers ≤ maxStrlen) :
    LengthsUpTo maxStrlen headers := by
  intro header isHeader
  rcases List.append_of_mem isHeader with ⟨before, behind, rfl⟩
  have part : headerBytes [header] ≤ headerBytes (before ++ header :: behind) := by
    have split : before ++ header :: behind = before ++ ([header] ++ behind) := rfl
    rw [split, headerBytes_append, headerBytes_append]
    omega
  have size : headerBytes [header] = header.1.length + header.2.length := by simp [headerBytes]
  constructor <;> omega

/--
What lsquic is handed for a list of at most 64 KB: the vector has stayed in one place from the
first entry on; the block is laid out as expected if lengths up to 64 KB are stored, and also
with a lower limit as long as no name and no value exceeds it; reading it gives the list that
the stream sends.  A larger list is not sent.
-/
theorem headerBlock_exact (s : QuicTransportStream) (headers : HeaderList) (ok : Bool) (cb : ℕ)
    {maxStrlen : ℕ} (stores : StoresUpTo maxStrlen setOffset2) (isOpen : s.stream = true) :
    (headerBytes headers ≤ 64 * 1024 →
      (64 * 1024 ≤ maxStrlen ∨ LengthsUpTo maxStrlen headers →
        Laid headers (headerBlock setOffset2 headers)) ∧
      (headers ≠ [] →
        (httpHeaders setOffset2 headers).headers = (headerBlock setOffset2 headers).arr) ∧
      (headers.length < 2 ^ 31 → (httpHeaders setOffset2 headers).count = headers.length) ∧
      (∀ done, done <+: headers →
        (HeaderBlock.fill setOffset2 (headerBytes headers) done).nameVals.place =
            (headerBlock setOffset2 headers).nameVals.place ∧
          (HeaderBlock.fill setOffset2 (headerBytes headers) done).nameVals.capacity =
            (CharVector.empty.reserve (headerBytes headers)).capacity) ∧
      .lsquic true (.sendHeaders (H3Codec.lowerNames headers)) ∈
        (s.asyncSendHeaders headers ok cb).2) ∧
    (64 * 1024 < headerBytes headers →
      (s.asyncSendHeaders headers ok cb).2 = [.invoked cb (.written (some .messageSize) 0)]) := by
  refine ⟨?_, ?_⟩
  · intro small
    refine ⟨?_, ?_, ?_, ?_, ?_⟩
    · rintro (large | short)
      · exact laid_headerBlock stores small (lengthsUpTo_of_small (small.trans large))
      · exact laid_headerBlock stores small short
    · intro nonempty
      exact if_neg nonempty
    · intro few
      simp only [httpHeaders, H3Codec.toInt]
      apply Int.bmod_eq_of_le <;> omega
    · rintro done ⟨later, rfl⟩
      have part : headerBytes done ≤ headerBytes (done ++ later) := by
        rw [headerBytes_append]
        exact Nat.le_add_right _ _
      rcases HeaderBlock.place_fill setOffset2 part with ⟨place, capacity⟩
      refine ⟨?_, capacity⟩
      rw [place, headerBlock, (HeaderBlock.place_fill setOffset2 le_rfl).1]
    · have sends : ¬64 * 1024 < headerBytes headers := not_lt.mpr small
      rw [asyncSendHeaders, if_neg (by simp [isOpen]), if_neg sends]
      simp [behind, touch, isOpen]
  · intro large
    rw [asyncSendHeaders, if_neg (by simp [isOpen]), if_pos large]
    rfl

/-- An entry with 32-bit offsets and 16-bit lengths. -/
def setShort : SetOffset2 := fun buf nameOffset nameLen valOffset valLen =>
  { buf
    nameOffset := nameOffset % 2 ^ 32
    nameLen := nameLen % 2 ^ 16
    valOffset := valOffset % 2 ^ 32
    valLen := valLen % 2 ^ 16 }

theorem setShort_stores : StoresUpTo (2 ^ 16 - 1) setShort := by
  intro buf nameOffset nameLen valOffset valLen nameAt valueAt shortName shortValue
  rw [setShort, Nat.mod_eq_of_lt (by omega), Nat.mod_eq_of_lt (by omega),
    Nat.mod_eq_of_lt (by omega), Nat.mod_eq_of_lt (by omega)]

/-- A name in upper case and an empty value. -/
theorem headerBlock_exact_host :
    headerBytes [(ascii "Host", ascii "a"), (ascii "TE", [])] ≤ 64 * 1024 ∧
      (headerBlock setShort [(ascii "Host", ascii "a"), (ascii "TE", [])]).nameVals.chars =
        ascii "hostate" ∧
      Laid [(ascii "Host", ascii "a"), (ascii "TE", [])]
        (headerBlock setShort [(ascii "Host", ascii "a"), (ascii "TE", [])]) :=
  ⟨by decide, by decide,
    ((headerBlock_exact setShort {} [(ascii "Host", ascii "a"), (ascii "TE", [])] true 0
      setShort_stores rfl).1 (by decide)).1 (.inr (lengthsUpTo_of_small (by decide)))⟩

end QuicTransportStream

end ReverseProxy
