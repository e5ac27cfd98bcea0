import ReverseProxy.Codec.BodyEnd
import ReverseProxy.Http1.Chunked

/-!
# What the chunked decoder accepts

`ChunkedBodySource` reads a size line up to a line feed and drops every CR in it,
reads the data, takes two bytes behind it whatever they are, and reads trailer lines
up to one that is empty but for CRs.  A `RawCoding` is a text cut into these parts.
`Accepted` says which parts the decoder takes, `WellFormed` which of them make up a
chunked body by RFC 9112.
-/

namespace Text

/-- The first occurrence of a symbol cuts a text in one way only. -/
theorem eq_of_append_cons_eq {α : Type} [DecidableEq α] {before before' after after' : List α}
    {symbol : α} (fresh : symbol ∉ before) (fresh' : symbol ∉ before')
    (same : before ++ symbol :: after = before' ++ symbol :: after') :
    before = before' ∧ after = after' := by
  have cut := dropInfix?_singleton fresh after
  rw [same, dropInfix?_singleton fresh' after'] at cut
  rcases Prod.mk.inj (Option.some.inj cut) with ⟨sameBefore, sameAfter⟩
  exact ⟨sameBefore.symm, sameAfter.symm⟩

end Text

namespace ReverseProxy

open Text

namespace ChunkedBodySource

open BodyReader (lineText chunkSize)

/-- A chunk as it is read: a line without its line feed, the data, and two more bytes. -/
structure RawChunk where
  line : Bytes
  data : Bytes
  ending : Bytes

/-- The parts of a text that is read to the end of its trailer lines. -/
structure RawCoding where
  chunks : List RawChunk
  lastLine : Bytes
  trailers : List Bytes
  /-- The line that ends the trailers. -/
  blank : Bytes

/-- The text of a chunk. -/
def RawChunk.bytes (chunk : RawChunk) : Bytes :=
  chunk.line ++ LF :: (chunk.data ++ chunk.ending)

namespace RawCoding

/-- What follows the last chunk. -/
def closing (coding : RawCoding) : Bytes :=
  coding.lastLine ++ LF :: (unlines [LF] coding.trailers ++ (coding.blank ++ [LF]))

/-- The text of a coding. -/
def bytes (coding : RawCoding) : Bytes :=
  coding.chunks.flatMap RawChunk.bytes ++ coding.closing

/-- The body that it codes. -/
def content (coding : RawCoding) : Bytes :=
  coding.chunks.flatMap RawChunk.data

end RawCoding

/-! ## Accepted and well-formed parts -/

/-- The decoder takes the chunk. -/
structure RawChunk.Accepted (chunk : RawChunk) : Prop where
  unbroken : LF ∉ chunk.line
  size : chunkSize chunk.line = some chunk.data.length
  nonempty : chunk.data ≠ []
  ending : chunk.ending.length = 2

/-- The decoder takes the coding. -/
structure RawCoding.Accepted (coding : RawCoding) : Prop where
  chunks : ∀ chunk ∈ coding.chunks, chunk.Accepted
  last : LF ∉ coding.lastLine ∧ chunkSize coding.lastLine = some 0
  trailers : ∀ line ∈ coding.trailers, LF ∉ line ∧ lineText line ≠ []
  blank : LF ∉ coding.blank ∧ lineText coding.blank = []

/-- `chunk-size [ chunk-ext ] CR`. -/
def SizeLine (line : Bytes) (size : ℕ) : Prop :=
  ∃ numeral ext, line = numeral ++ ext ++ [CR] ∧ Rfc9112.hexNumber? numeral = some size ∧
    Rfc9112.ChunkExt ext

/-- A chunk of the grammar. -/
structure RawChunk.WellFormed (chunk : RawChunk) : Prop where
  size : SizeLine chunk.line chunk.data.length
  nonempty : chunk.data ≠ []
  fits : chunk.data.length < 2 ^ 64
  ending : chunk.ending = crlf

/-- A coding of the grammar. -/
structure RawCoding.WellFormed (coding : RawCoding) : Prop where
  chunks : ∀ chunk ∈ coding.chunks, chunk.WellFormed
  last : SizeLine coding.lastLine 0
  trailers : ∀ line ∈ coding.trailers, ∃ field, line = field ++ [CR] ∧ Rfc9112.FieldLine field
  blank : coding.blank = [CR]

theorem lineText_of_inline {text : Bytes} (isInline : Rfc9112.Inline text) :
    lineText (text ++ [CR]) = text := by
  have kept : text.filter (· ≠ CR) = text := by
    rw [List.filter_eq_self]
    intro byte byteMem
    rw [decide_eq_true_eq]
    rintro rfl
    exact isInline.unbroken.1 byteMem
  rw [lineText, List.filter_append, kept]
  simp

theorem unbroken_of_inline {text : Bytes} (isInline : Rfc9112.Inline text) : LF ∉ text ++ [CR] := by
  rw [List.mem_append, not_or]
  exact ⟨isInline.unbroken.2, by decide⟩

theorem inline_of_hexNumber? {text : Bytes} {value : ℕ}
    (number : Rfc9112.hexNumber? text = some value) : Rfc9112.Inline text :=
  fun byte byteMem =>
    Rfc9112.inLine_of_isHex byte ((Rfc9112.hexNumber?_eq_some_iff.mp number).2.1 byte byteMem)

/-- What is left of a numeral with an extension has nothing but blanks behind the numeral. -/
theorem exists_sizeField {numeral ext : Bytes} (unmarked : Rfc9112.SEMICOLON ∉ numeral)
    (isExt : Rfc9112.ChunkExt ext) :
    ∃ tail, sizeField (numeral ++ ext) = numeral ++ tail ∧
      ∀ byte ∈ tail.head?, isBlank byte = true := by
  -- The head of the extension is blank unless it is the semicolon.
  have blank : ∀ tail, tail <+: ext → Rfc9112.SEMICOLON ∉ tail →
      ∀ byte ∈ tail.head?, isBlank byte = true := by
    intro tail begins absent byte byteMem
    have headMem : byte ∈ ext.head? := by
      rcases begins with ⟨more, rfl⟩
      exact List.mem_head?_append_of_mem_head? byteMem
    rcases isExt.head byte headMem with rfl | isBlank
    · exact absurd (List.mem_of_mem_head? byteMem) absent
    · exact isBlank
  unfold sizeField
  cases found : (numeral ++ ext).dropInfix? [59] with
  | none =>
    have absent := dropInfix?_singleton_eq_none_iff.mp found
    rw [List.mem_append, not_or] at absent
    exact ⟨ext, rfl, blank ext List.prefix_rfl absent.2⟩
  | some cut =>
    rcases cut with ⟨size, rest⟩
    rcases dropInfix?_singleton_eq_some_iff.mp found with ⟨split, absent⟩
    rcases List.append_eq_append_iff.mp split with ⟨tail, rfl, isTail⟩ | ⟨tail, isNumeral, isRest⟩
    · rw [List.mem_append, not_or] at absent
      exact ⟨tail, rfl, blank tail ⟨_, isTail.symm⟩ absent.2⟩
    · cases tail with
      | nil => exact ⟨[], by simpa using isNumeral.symm, by simp⟩
      | cons byte tail =>
        obtain rfl := (List.cons.inj isRest).1
        rw [isNumeral] at unmarked
        exact absurd (by simp [Rfc9112.SEMICOLON]) unmarked

/-- Of a numeral with an extension, the numeral is converted. -/
theorem strtoul_sizeField {numeral ext : Bytes} {size : ℕ}
    (number : Rfc9112.hexNumber? numeral = some size) (isExt : Rfc9112.ChunkExt ext)
    (fits : size < 2 ^ 64) : strtoul 16 (sizeField (numeral ++ ext)) = some size := by
  have stop : ∀ byte, isBlank byte = true →
      digitValue 16 byte = none ∧ byte ≠ 120 ∧ byte ≠ 88 := forall_byte (by decide +kernel)
  have bound : ulongMax = 2 ^ 64 - 1 := rfl
  rcases Rfc9112.hexNumber?_eq_some_iff.mp number with ⟨nonempty, digits, value⟩
  have unmarked : Rfc9112.SEMICOLON ∉ numeral := by
    intro marked
    exact absurd (digits _ marked) (by decide)
  rcases exists_sizeField unmarked isExt with ⟨tail, isField, blanks⟩
  rw [isField, strtoul_of_hex nonempty digits fun byte byteMem => stop byte (blanks byte byteMem),
    value, min_eq_left (by omega)]

theorem chunkSize_of_sizeLine {line : Bytes} {size : ℕ} (sized : SizeLine line size)
    (fits : size < 2 ^ 64) : LF ∉ line ∧ chunkSize line = some size := by
  rcases sized with ⟨numeral, ext, rfl, number, isExt⟩
  have isInline : Rfc9112.Inline (numeral ++ ext) :=
    Rfc9112.inline_append_iff.mpr ⟨inline_of_hexNumber? number, isExt.inline⟩
  refine ⟨unbroken_of_inline isInline, ?_⟩
  rw [chunkSize, lineText_of_inline isInline]
  exact strtoul_sizeField number isExt fits

theorem RawChunk.WellFormed.accepted {chunk : RawChunk} (wellFormed : chunk.WellFormed) :
    chunk.Accepted := by
  rcases chunkSize_of_sizeLine wellFormed.size wellFormed.fits with ⟨unbroken, size⟩
  refine ⟨unbroken, size, wellFormed.nonempty, ?_⟩
  rw [wellFormed.ending]
  rfl

theorem RawCoding.WellFormed.accepted {coding : RawCoding} (wellFormed : coding.WellFormed) :
    coding.Accepted := by
  refine ⟨fun chunk chunkMem => (wellFormed.chunks chunk chunkMem).accepted,
    chunkSize_of_sizeLine wellFormed.last (by decide), ?_, ?_⟩
  · intro line lineMem
    rcases wellFormed.trailers line lineMem with ⟨field, rfl, isField⟩
    refine ⟨unbroken_of_inline isField.inline, ?_⟩
    rw [lineText_of_inline isField.inline]
    exact isField.ne_nil
  · rw [wellFormed.blank]
    decide

/-! ## The grammar -/

theorem unlines_concat_cr (fields : List Bytes) :
    unlines [LF] (fields.map (· ++ [CR])) = unlines crlf fields := by
  simp [unlines, List.flatMap_map, crlf]

theorem exists_fields {trailers : List Bytes}
    (lines : ∀ line ∈ trailers, ∃ field, line = field ++ [CR] ∧ Rfc9112.FieldLine field) :
    ∃ fields : List Bytes, trailers = fields.map (· ++ [CR]) ∧
      ∀ field ∈ fields, Rfc9112.FieldLine field := by
  induction trailers with
  | nil => exact ⟨[], rfl, by simp⟩
  | cons line trailers ih =>
    rw [List.forall_mem_cons] at lines
    rcases lines with ⟨⟨field, rfl, isField⟩, later⟩
    rcases ih later with ⟨fields, rfl, areFields⟩
    exact ⟨field :: fields, rfl, List.forall_mem_cons.mpr ⟨isField, areFields⟩⟩

/-- A text is a chunked body when it can be cut into well-formed parts. -/
theorem chunkedCoding_iff {text content : Bytes} :
    Rfc9112.ChunkedCoding (2 ^ 64) text content ↔
      ∃ coding : RawCoding, coding.WellFormed ∧ coding.bytes = text ∧
        coding.content = content := by
  constructor
  · intro coded
    induction coded with
    | @last zeros ext trailers zero isExt fields =>
      refine ⟨⟨[], zeros ++ ext ++ [CR], trailers.map (· ++ [CR]), [CR]⟩, ⟨?_, ?_, ?_, rfl⟩, ?_,
        rfl⟩
      · simp
      · exact ⟨zeros, ext, rfl, zero, isExt⟩
      · intro line lineMem
        rcases List.mem_map.mp lineMem with ⟨field, fieldMem, rfl⟩
        exact ⟨field, rfl, fields field fieldMem⟩
      · simp [RawCoding.bytes, RawCoding.closing, unlines_concat_cr, crlf]
    | @chunk size ext data rest content number isExt nonempty fits more ih =>
      rcases ih with ⟨coding, wellFormed, rfl, rfl⟩
      refine ⟨{ coding with chunks := ⟨size ++ ext ++ [CR], data, crlf⟩ :: coding.chunks },
        ⟨?_, wellFormed.last, wellFormed.trailers, wellFormed.blank⟩, ?_, ?_⟩
      · rw [List.forall_mem_cons]
        exact ⟨⟨⟨size, ext, rfl, number, isExt⟩, nonempty, fits, rfl⟩, wellFormed.chunks⟩
      · simp [RawCoding.bytes, RawChunk.bytes, RawCoding.closing, crlf]
      · simp [RawCoding.content]
  · rintro ⟨⟨chunks, lastLine, trailers, blank⟩, wellFormed, rfl, rfl⟩
    induction chunks with
    | nil =>
      rcases wellFormed with ⟨-, ⟨zeros, ext, isLast, zero, isExt⟩, lines, isBlank⟩
      rcases exists_fields lines with ⟨fields, isTrailers, areFields⟩
      have coded : Rfc9112.ChunkedCoding (2 ^ 64) _ _ := .last zero isExt areFields
      simp only at isLast isTrailers isBlank
      simpa [RawCoding.bytes, RawCoding.closing, RawCoding.content, isLast, isTrailers, isBlank,
        unlines_concat_cr, crlf] using coded
    | cons chunk chunks ih =>
      rcases wellFormed with ⟨areChunks, last, lines, isBlank⟩
      rcases List.forall_mem_cons.mp areChunks with ⟨isChunk, later⟩
      rcases isChunk.size with ⟨size, ext, isLine, number, isExt⟩
      have coded := Rfc9112.ChunkedCoding.chunk number isExt isChunk.nonempty isChunk.fits
        (ih ⟨later, last, lines, isBlank⟩)
      simpa [RawCoding.bytes, RawChunk.bytes, RawCoding.closing, RawCoding.content, isLine,
        isChunk.ending, crlf] using coded

/-! ## A text is read in one way only -/

theorem closing_eq_of_append_eq {trailers trailers' : List Bytes} {blank blank' rest rest' : Bytes}
    (lines : ∀ line ∈ trailers, LF ∉ line ∧ lineText line ≠ [])
    (lines' : ∀ line ∈ trailers', LF ∉ line ∧ lineText line ≠ [])
    (ends : LF ∉ blank ∧ lineText blank = []) (ends' : LF ∉ blank' ∧ lineText blank' = [])
    (same : unlines [LF] trailers ++ (blank ++ [LF]) ++ rest =
      unlines [LF] trailers' ++ (blank' ++ [LF]) ++ rest') :
    trailers = trailers' ∧ blank = blank' ∧ rest = rest' := by
  induction trailers generalizing trailers' with
  | nil =>
    cases trailers' with
    | nil =>
      simp only [unlines, List.flatMap_nil, List.nil_append, List.append_assoc,
        List.singleton_append] at same
      exact ⟨rfl, eq_of_append_cons_eq ends.1 ends'.1 same⟩
    | cons line' trailers' =>
      rw [List.forall_mem_cons] at lines'
      simp only [unlines, List.flatMap_nil, List.flatMap_cons, List.nil_append,
        List.append_assoc, List.singleton_append] at same
      obtain rfl := (eq_of_append_cons_eq ends.1 lines'.1.1 same).1
      exact absurd ends.2 lines'.1.2
  | cons line trailers ih =>
    rw [List.forall_mem_cons] at lines
    cases trailers' with
    | nil =>
      simp only [unlines, List.flatMap_nil, List.flatMap_cons, List.nil_append,
        List.append_assoc, List.singleton_append] at same
      obtain rfl := (eq_of_append_cons_eq lines.1.1 ends'.1 same).1
      exact absurd ends'.2 lines.1.2
    | cons line' trailers' =>
      rw [List.forall_mem_cons] at lines'
      simp only [unlines, List.flatMap_cons, List.append_assoc, List.singleton_append] at same
      rcases eq_of_append_cons_eq lines.1.1 lines'.1.1 same with ⟨rfl, later⟩
      have tails := ih lines.2 lines'.2 (by simpa [unlines] using later)
      exact ⟨by rw [tails.1], tails.2⟩

/-- A chunk and the line of another cannot begin a text in two ways. -/
theorem RawChunk.Accepted.eq_of_append_eq {chunk chunk' : RawChunk} {rest rest' : Bytes}
    (accepted : chunk.Accepted) (accepted' : chunk'.Accepted)
    (same : chunk.bytes ++ rest = chunk'.bytes ++ rest') : chunk = chunk' ∧ rest = rest' := by
  rcases chunk with ⟨line, data, ending⟩
  rcases chunk' with ⟨line', data', ending'⟩
  simp only [RawChunk.bytes, List.append_assoc, List.cons_append] at same
  rcases eq_of_append_cons_eq accepted.unbroken accepted'.unbroken same with ⟨rfl, later⟩
  have size : data.length = data'.length :=
    Option.some.inj (accepted.size.symm.trans accepted'.size)
  rcases List.append_inj later size with ⟨rfl, behind⟩
  have ends : ending.length = ending'.length := accepted.ending.trans accepted'.ending.symm
  rcases List.append_inj behind ends with ⟨rfl, rfl⟩
  exact ⟨rfl, rfl⟩

/-- A chunk does not begin with the line that ends the chunks. -/
theorem RawChunk.Accepted.bytes_ne_closing {chunk : RawChunk} {rest rest' line : Bytes}
    (accepted : chunk.Accepted) (unbroken : LF ∉ line) (last : chunkSize line = some 0) :
    chunk.bytes ++ rest ≠ line ++ LF :: rest' := by
  intro same
  simp only [RawChunk.bytes, List.append_assoc, List.cons_append] at same
  obtain rfl := (eq_of_append_cons_eq accepted.unbroken unbroken same).1
  rw [accepted.size, Option.some.injEq, List.length_eq_zero_iff] at last
  exact accepted.nonempty last

theorem chunks_eq_of_append_eq {chunks chunks' : List RawChunk} {line line' rest rest' : Bytes}
    (accepted : ∀ chunk ∈ chunks, chunk.Accepted) (accepted' : ∀ chunk ∈ chunks', chunk.Accepted)
    (last : LF ∉ line ∧ chunkSize line = some 0) (last' : LF ∉ line' ∧ chunkSize line' = some 0)
    (same : chunks.flatMap RawChunk.bytes ++ (line ++ LF :: rest) =
      chunks'.flatMap RawChunk.bytes ++ (line' ++ LF :: rest')) :
    chunks = chunks' ∧ line = line' ∧ rest = rest' := by
  induction chunks generalizing chunks' with
  | nil =>
    cases chunks' with
    | nil => exact ⟨rfl, eq_of_append_cons_eq last.1 last'.1 same⟩
    | cons chunk' chunks' =>
      rw [List.forall_mem_cons] at accepted'
      rw [List.flatMap_nil, List.nil_append, List.flatMap_cons, List.append_assoc] at same
      exact absurd same.symm (accepted'.1.bytes_ne_closing last.1 last.2)
  | cons chunk chunks ih =>
    rw [List.forall_mem_cons] at accepted
    rw [List.flatMap_cons, List.append_assoc] at same
    cases chunks' with
    | nil => exact absurd same (accepted.1.bytes_ne_closing last'.1 last'.2)
    | cons chunk' chunks' =>
      rw [List.forall_mem_cons] at accepted'
      rw [List.flatMap_cons, List.append_assoc] at same
      rcases accepted.1.eq_of_append_eq accepted'.1 same with ⟨rfl, later⟩
      rcases ih accepted.2 accepted'.2 later with ⟨rfl, tails⟩
      exact ⟨rfl, tails⟩

theorem RawCoding.Accepted.eq_of_append_eq {coding coding' : RawCoding} {rest rest' : Bytes}
    (accepted : coding.Accepted) (accepted' : coding'.Accepted)
    (same : coding.bytes ++ rest = coding'.bytes ++ rest') : coding = coding' ∧ rest = rest' := by
  rcases coding with ⟨chunks, lastLine, trailers, blank⟩
  rcases coding' with ⟨chunks', lastLine', trailers', blank'⟩
  simp only [RawCoding.bytes, RawCoding.closing, List.append_assoc, List.cons_append] at same
  rcases chunks_eq_of_append_eq accepted.chunks accepted'.chunks accepted.last accepted'.last same
    with ⟨rfl, rfl, later⟩
  have tails := closing_eq_of_append_eq accepted.trailers accepted'.trailers accepted.blank
    accepted'.blank (by simpa using later)
  rcases tails with ⟨rfl, rfl, rfl⟩
  exact ⟨rfl, rfl⟩

/-! ## Beginnings and ends of texts -/

/-- The text begins with an accepted coding of the content, and `rest` follows. -/
def Takes (rest text content : Bytes) : Prop :=
  ∃ coding : RawCoding, coding.Accepted ∧ text = coding.bytes ++ rest ∧ content = coding.content

/-- The text ends in the data of a chunk, before the size that its line gives. -/
def Truncated (text content : Bytes) : Prop :=
  ∃ (chunks : List RawChunk) (line data : Bytes) (size : ℕ),
    (∀ chunk ∈ chunks, chunk.Accepted) ∧ LF ∉ line ∧ chunkSize line = some size ∧
      data.length < size ∧ text = chunks.flatMap RawChunk.bytes ++ (line ++ LF :: data) ∧
      content = chunks.flatMap RawChunk.data ++ data

theorem Takes.cons {chunk : RawChunk} (accepted : chunk.Accepted) {rest text content : Bytes}
    (taken : Takes rest text content) :
    Takes rest (chunk.bytes ++ text) (chunk.data ++ content) := by
  rcases taken with ⟨coding, isAccepted, rfl, rfl⟩
  refine ⟨{ coding with chunks := chunk :: coding.chunks }, ⟨?_, isAccepted.last,
    isAccepted.trailers, isAccepted.blank⟩, ?_, ?_⟩
  · exact List.forall_mem_cons.mpr ⟨accepted, isAccepted.chunks⟩
  · simp [RawCoding.bytes, RawCoding.closing]
  · simp [RawCoding.content]

theorem Truncated.cons {chunk : RawChunk} (accepted : chunk.Accepted) {text content : Bytes}
    (truncated : Truncated text content) :
    Truncated (chunk.bytes ++ text) (chunk.data ++ content) := by
  rcases truncated with ⟨chunks, line, data, size, areChunks, unbroken, isSize, short, rfl, rfl⟩
  refine ⟨chunk :: chunks, line, data, size, List.forall_mem_cons.mpr ⟨accepted, areChunks⟩,
    unbroken, isSize, short, ?_, ?_⟩
  · rw [List.flatMap_cons, List.append_assoc]
  · rw [List.flatMap_cons, List.append_assoc]

/-- A truncated text does not begin with an accepted coding. -/
theorem Truncated.not_takes {text content rest content' : Bytes}
    (truncated : Truncated text content) : ¬Takes rest text content' := by
  rcases truncated with ⟨chunks, line, data, size, areChunks, unbroken, isSize, short, rfl, rfl⟩
  rintro ⟨⟨chunks', lastLine, trailers, blank⟩, ⟨areChunks', last, -, -⟩, same, -⟩
  simp only [RawCoding.bytes, RawCoding.closing, List.append_assoc, List.cons_append] at same
  clear content'
  induction chunks generalizing chunks' with
  | nil =>
    rw [List.flatMap_nil, List.nil_append] at same
    cases chunks' with
    | nil =>
      obtain rfl := (eq_of_append_cons_eq unbroken last.1 same).1
      rw [isSize, Option.some.injEq] at last
      omega
    | cons chunk' chunks' =>
      have isChunk := areChunks' chunk' (by simp)
      rw [List.flatMap_cons, RawChunk.bytes] at same
      simp only [List.append_assoc, List.cons_append] at same
      rcases eq_of_append_cons_eq unbroken isChunk.unbroken same with ⟨rfl, later⟩
      have size_eq := Option.some.inj (isSize.symm.trans isChunk.size)
      have lengths := congrArg List.length later
      simp only [List.length_append] at lengths
      omega
  | cons chunk chunks ih =>
    rw [List.forall_mem_cons] at areChunks
    rw [List.flatMap_cons, List.append_assoc] at same
    cases chunks' with
    | nil => exact areChunks.1.bytes_ne_closing last.1 last.2 same
    | cons chunk' chunks' =>
      have isChunk := areChunks' chunk' (by simp)
      rw [List.flatMap_cons, List.append_assoc] at same
      rcases areChunks.1.eq_of_append_eq isChunk same with ⟨-, later⟩
      exact ih areChunks.2 chunks' (List.forall_mem_cons.mp areChunks').2 last later

end ChunkedBodySource

end ReverseProxy
