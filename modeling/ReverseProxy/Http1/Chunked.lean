import ReverseProxy.Http1.Framing

/-!
# The chunked transfer coding

The grammar of RFC 9112 §7.1 with the parts of RFC 9110 that it builds on, down to
chunk extensions and trailer fields.  `Framing.ChunkedBody` says where a chunked body
ends whatever stands in its extensions and trailers; `ChunkedCoding` is the language
itself, with a limit on the chunk sizes that a recipient can represent.
-/

namespace Rfc9112

open Text

/-- `;`. -/
def SEMICOLON : UInt8 := 59
/-- `=`. -/
def EQUALS : UInt8 := 61
/-- Double quote. -/
def DQUOTE : UInt8 := 34
/-- Backslash. -/
def BACKSLASH : UInt8 := 92

/-- `tchar`. -/
def isTchar (byte : UInt8) : Bool :=
  isDigit byte || (65 ≤ byte && byte ≤ 90) || (97 ≤ byte && byte ≤ 122) ||
    byte ∈ ascii "!#$%&'*+-.^_|~" || byte = 96

/-- `token = 1*tchar`. -/
def Token (text : Bytes) : Prop :=
  text ≠ [] ∧ ∀ byte ∈ text, isTchar byte = true

/-- `HTAB / SP / VCHAR / obs-text`. -/
def isFieldByte (byte : UInt8) : Bool :=
  byte = HTAB || (32 ≤ byte && byte ≤ 126) || 128 ≤ byte

/-- `*( qdtext / quoted-pair )`. -/
inductive QuotedText : Bytes → Prop where
  | nil : QuotedText []
  | text {byte : UInt8} {rest : Bytes} (plain : isFieldByte byte = true)
      (unquoted : byte ≠ DQUOTE ∧ byte ≠ BACKSLASH) (more : QuotedText rest) :
      QuotedText (byte :: rest)
  | pair {byte : UInt8} {rest : Bytes} (plain : isFieldByte byte = true)
      (more : QuotedText rest) : QuotedText (BACKSLASH :: byte :: rest)

/-- `quoted-string`. -/
def QuotedString (text : Bytes) : Prop :=
  ∃ inner, text = DQUOTE :: (inner ++ [DQUOTE]) ∧ QuotedText inner

/-- `BWS`. -/
def Blanks (text : Bytes) : Prop :=
  ∀ byte ∈ text, isBlank byte = true

/-- `*( BWS ";" BWS chunk-ext-name [ BWS "=" BWS chunk-ext-val ] )`. -/
inductive ChunkExt : Bytes → Prop where
  | nil : ChunkExt []
  | named {before after name rest : Bytes} (blanks : Blanks before ∧ Blanks after)
      (token : Token name) (more : ChunkExt rest) :
      ChunkExt (before ++ SEMICOLON :: (after ++ name ++ rest))
  | valued {before after name left right value rest : Bytes}
      (blanks : Blanks before ∧ Blanks after) (token : Token name)
      (around : Blanks left ∧ Blanks right) (isValue : Token value ∨ QuotedString value)
      (more : ChunkExt rest) :
      ChunkExt (before ++ SEMICOLON :: (after ++ name ++ left ++ EQUALS :: (right ++ value ++ rest)))

/-- `field-line = field-name ":" OWS field-value OWS`. -/
def FieldLine (line : Bytes) : Prop :=
  ∃ name value, line = name ++ COLON :: value ∧ Token name ∧
    ∀ byte ∈ value, isFieldByte byte = true

/-- `1*HEXDIG`. -/
def hexNumber? (text : Bytes) : Option ℕ :=
  if text ≠ [] ∧ text.all fun byte => (digitValue 16 byte).isSome then
    some (ofDigits 16 (leadingDigits 16 text))
  else none

/--
`chunked-body = *chunk last-chunk trailer-section CRLF` and the content it carries,
where all chunk sizes are below the limit.
-/
inductive ChunkedCoding (limit : ℕ) : Bytes → Bytes → Prop where
  | last {zeros ext : Bytes} {trailers : List Bytes}
      (zero : hexNumber? zeros = some 0) (isExt : ChunkExt ext)
      (fields : ∀ line ∈ trailers, FieldLine line) :
      ChunkedCoding limit (zeros ++ ext ++ crlf ++ unlines crlf trailers ++ crlf) []
  | chunk {size ext data rest content : Bytes} (number : hexNumber? size = some data.length)
      (isExt : ChunkExt ext) (nonempty : data ≠ []) (fits : data.length < limit)
      (more : ChunkedCoding limit rest content) :
      ChunkedCoding limit (size ++ ext ++ crlf ++ data ++ crlf ++ rest) (data ++ content)

/-! ## No line ends inside a line -/

/-- A byte that does not end a line. -/
def inLine (byte : UInt8) : Bool := byte ≠ CR && byte ≠ LF

theorem inLine_of_isTchar : ∀ byte, isTchar byte = true → inLine byte = true :=
  forall_byte (by decide +kernel)

theorem inLine_of_isFieldByte : ∀ byte, isFieldByte byte = true → inLine byte = true :=
  forall_byte (by decide +kernel)

theorem inLine_of_isBlank : ∀ byte, isBlank byte = true → inLine byte = true :=
  forall_byte (by decide +kernel)

theorem inLine_of_isHex : ∀ byte, (digitValue 16 byte).isSome = true → inLine byte = true :=
  forall_byte (by decide +kernel)

/-- A text within one line. -/
def Inline (text : Bytes) : Prop :=
  ∀ byte ∈ text, inLine byte = true

theorem inline_append_iff {left right : Bytes} :
    Inline (left ++ right) ↔ Inline left ∧ Inline right :=
  List.forall_mem_append

theorem inline_cons_iff {byte : UInt8} {text : Bytes} :
    Inline (byte :: text) ↔ inLine byte = true ∧ Inline text :=
  List.forall_mem_cons

theorem Inline.unbroken {text : Bytes} (inline_ : Inline text) : CR ∉ text ∧ LF ∉ text := by
  constructor
  · intro crMem
    exact absurd (inline_ CR crMem) (by decide)
  · intro lfMem
    exact absurd (inline_ LF lfMem) (by decide)

theorem Token.inline {text : Bytes} (token : Token text) : Inline text :=
  fun byte byteMem => inLine_of_isTchar byte (token.2 byte byteMem)

theorem Blanks.inline {text : Bytes} (blanks : Blanks text) : Inline text :=
  fun byte byteMem => inLine_of_isBlank byte (blanks byte byteMem)

theorem QuotedText.inline {text : Bytes} (quoted : QuotedText text) : Inline text := by
  induction quoted with
  | nil => exact fun byte byteMem => absurd byteMem (by simp)
  | text plain _ _ ih => exact inline_cons_iff.mpr ⟨inLine_of_isFieldByte _ plain, ih⟩
  | pair plain _ ih =>
    exact inline_cons_iff.mpr ⟨by decide,
      inline_cons_iff.mpr ⟨inLine_of_isFieldByte _ plain, ih⟩⟩

theorem inline_of_value {value : Bytes} (isValue : Token value ∨ QuotedString value) :
    Inline value := by
  rcases isValue with token | ⟨inner, rfl, quoted⟩
  · exact token.inline
  · refine inline_cons_iff.mpr ⟨by decide, inline_append_iff.mpr ⟨quoted.inline, ?_⟩⟩
    intro byte byteMem
    obtain rfl := List.mem_singleton.mp byteMem
    decide

theorem ChunkExt.inline {ext : Bytes} (isExt : ChunkExt ext) : Inline ext := by
  induction isExt with
  | nil => exact fun byte byteMem => absurd byteMem (by simp)
  | named blanks token _ ih =>
    refine inline_append_iff.mpr ⟨blanks.1.inline, inline_cons_iff.mpr ⟨by decide, ?_⟩⟩
    exact inline_append_iff.mpr ⟨inline_append_iff.mpr ⟨blanks.2.inline, token.inline⟩, ih⟩
  | valued blanks token around isValue _ ih =>
    refine inline_append_iff.mpr ⟨blanks.1.inline, inline_cons_iff.mpr ⟨by decide, ?_⟩⟩
    refine inline_append_iff.mpr ⟨?_, inline_cons_iff.mpr ⟨by decide, ?_⟩⟩
    · exact inline_append_iff.mpr
        ⟨inline_append_iff.mpr ⟨blanks.2.inline, token.inline⟩, around.1.inline⟩
    · exact inline_append_iff.mpr
        ⟨inline_append_iff.mpr ⟨around.2.inline, inline_of_value isValue⟩, ih⟩

/-- An extension begins with a semicolon or with blanks before one. -/
theorem ChunkExt.head {ext : Bytes} (isExt : ChunkExt ext) :
    ∀ byte ∈ ext.head?, byte = SEMICOLON ∨ isBlank byte = true := by
  have start : ∀ {before tail : Bytes}, Blanks before →
      ∀ byte ∈ (before ++ SEMICOLON :: tail).head?, byte = SEMICOLON ∨ isBlank byte = true := by
    intro before tail blanks byte byteMem
    cases before with
    | nil => exact .inl (by simpa using byteMem.symm)
    | cons blank before =>
      obtain rfl : blank = byte := by simpa using byteMem
      exact .inr (blanks blank (by simp))
  cases isExt with
  | nil => simp
  | named blanks _ _ => exact start blanks.1
  | valued blanks _ _ _ _ => exact start blanks.1

theorem FieldLine.inline {line : Bytes} (field : FieldLine line) : Inline line := by
  rcases field with ⟨name, value, rfl, token, bytes⟩
  refine inline_append_iff.mpr ⟨token.inline, inline_cons_iff.mpr ⟨by decide, ?_⟩⟩
  exact fun byte byteMem => inLine_of_isFieldByte byte (bytes byte byteMem)

theorem FieldLine.ne_nil {line : Bytes} (field : FieldLine line) : line ≠ [] := by
  rcases field with ⟨name, value, rfl, -⟩
  simp

theorem hexNumber?_eq_some_iff {text : Bytes} {value : ℕ} :
    hexNumber? text = some value ↔
      text ≠ [] ∧ (∀ byte ∈ text, (digitValue 16 byte).isSome = true) ∧
        ofDigits 16 (leadingDigits 16 text) = value := by
  rw [hexNumber?, Option.ite_none_right_eq_some, Option.some.injEq, List.all_eq_true, and_assoc]

end Rfc9112
