import ReverseProxy.Codec.H1.Wire
import ReverseProxy.Codec.Pump
import ReverseProxy.Http1.Framing

/-!
# Written heads and the framing they announce

How a receiver that follows RFC 9112 splits and delimits what `H1Codec` writes:
the header section of a written head, the fields in it, and the length that the
codec itself takes from the same fields.
-/

namespace ReverseProxy

open Text

namespace H1Codec

/-! ## The header section -/

/-- The lines that a receiver finds in written lines, each of which may contain line ends. -/
def receivedLines (lines : List Bytes) : List Bytes × Bytes :=
  sectionOf CR LF (lines.flatMap (splitLines CR LF)) []

theorem sectionOf_append (lines : List Bytes) (body : Bytes) :
    sectionOf CR LF lines body =
      ((sectionOf CR LF lines []).1, (sectionOf CR LF lines []).2 ++ body) := by
  induction lines with
  | nil => rfl
  | cons line lines ih =>
    cases line with
    | nil => simp [sectionOf]
    | cons byte line => simp only [sectionOf, ih]

theorem message?_unlines (lines : List Bytes) (body : Bytes) :
    Rfc9112.message? (unlines crlf lines ++ crlf ++ body) =
      some ((receivedLines lines).1, (receivedLines lines).2 ++ body) := by
  have parts := takeSection?_unlines_parts (by decide : CR ≠ LF) lines body
  rw [sectionOf_append] at parts
  simpa [Rfc9112.message?, crlf, receivedLines] using parts

theorem unbroken_of_lf_notMem {line : Bytes} (unbroken : LF ∉ line) : ¬crlf <:+: line :=
  fun occurs => unbroken (occurs.subset (by simp [crlf]))

/-- Lines without line ends in them are received as they are. -/
theorem receivedLines_of_unbroken {lines : List Bytes} (unbroken : ∀ line ∈ lines, ¬crlf <:+: line)
    (nonempty : [] ∉ lines) : receivedLines lines = (lines, []) := by
  have single : lines.flatMap (splitLines CR LF) = lines := by
    clear nonempty
    induction lines with
    | nil => rfl
    | cons line lines ih =>
      rw [List.flatMap_cons, splitLines_of_unbroken (unbroken line List.mem_cons_self),
        ih fun later laterMem => unbroken later (by simp [laterMem])]
      rfl
  rw [receivedLines, single, sectionOf_of_ne_nil nonempty]

/-- An RFC 9112 receiver and the codec end the header section at the same place. -/
theorem message?_of_dropInfix? {text block after : Bytes}
    (found : text.dropInfix? crlfcrlf = some (block, after))
    (begins : ¬crlf <+: block ++ crlfcrlf) :
    ∃ startLine lines, Rfc9112.message? text = some (startLine :: lines, after) := by
  have split := eq_of_dropInfix? found
  have beginsText : ¬crlf <+: text := by
    intro atStart
    apply begins
    rw [split] at atStart
    have length : crlfcrlf.length = 4 := by decide
    exact List.prefix_of_prefix_length_le atStart ⟨after, rfl⟩ (by simp [crlf, length])
  rcases List.exists_cons_of_ne_nil (splitLines_ne_nil block) with ⟨startLine, lines, cut⟩
  refine ⟨startLine, lines, ?_⟩
  rw [← cut]
  exact takeSection?_of_dropInfix? (by decide) found beginsText

theorem begins_of_parseHeaderBlock {raw : Bytes} {head : HttpRequestHead}
    (parse : parseHeaderBlock raw = .ok head) : ¬crlf <+: raw := by
  rintro ⟨rest, rfl⟩
  simp [parseHeaderBlock, crlf, getlines, CR, LF, stripCr, extractWord] at parse

/-! ## Fields -/

theorem field?_wireLine {entry : Bytes × Bytes} (colonless : COLON ∉ entry.1) :
    Rfc9112.field? (HeaderMap.wireLine entry) = some (entry.1, trim entry.2) := by
  have separator : ascii ": " = [COLON, SP] := by decide
  have cut := dropInfix?_singleton colonless (SP :: entry.2)
  simp [Rfc9112.field?, HeaderMap.wireLine, separator, cut, trim_blank_cons]

/-- The fields that a receiver finds in the written header lines. -/
def wireFields (headers : HeaderMap) : List Rfc9112.Field :=
  Rfc9112.fields (headers.entries.map HeaderMap.wireLine)

theorem wireFields_eq {headers : HeaderMap}
    (colonless : ∀ entry ∈ headers.entries, COLON ∉ entry.1) :
    wireFields headers = headers.entries.map fun entry => (entry.1, trim entry.2) := by
  obtain ⟨entries⟩ := headers
  simp only [wireFields, Rfc9112.fields]
  induction entries with
  | nil => rfl
  | cons entry entries ih =>
    rw [List.map_cons, List.filterMap_cons_some (field?_wireLine (colonless entry (by simp))),
      ih fun later laterMem => colonless later (by simp [laterMem]), List.map_cons]

theorem valuesOf_wireFields {headers : HeaderMap}
    (colonless : ∀ entry ∈ headers.entries, COLON ∉ entry.1) (name : Bytes) :
    Rfc9112.valuesOf name (wireFields headers) =
      (headers.entries.filter fun entry => lower entry.1 = name).map fun entry =>
        trim entry.2 := by
  rw [wireFields_eq colonless, Rfc9112.valuesOf, List.filter_map, List.map_map]
  rfl

/-! ## Lengths -/

theorem get_eq_head? (headers : HeaderMap) (key : Bytes) :
    headers.get key =
      ((headers.entries.filter fun entry => lower entry.1 = lower key).map Prod.snd).head? := by
  rw [HeaderMap.get, List.head?_map, List.head?_filter]

theorem declaredLength_of_absent {headers : HeaderMap}
    (colonless : ∀ entry ∈ headers.entries, COLON ∉ entry.1)
    (absent : Rfc9112.contentLength (wireFields headers) = []) : headers.declaredLength = none := by
  rw [Rfc9112.contentLength, valuesOf_wireFields colonless, List.map_eq_nil_iff] at absent
  have lowered : lower (ascii "content-length") = ascii "content-length" := by decide
  simp only [HeaderMap.declaredLength, get_eq_head?, lowered, absent]
  rfl

/-- The codec takes the length that RFC 9112 determines, as far as it fits. -/
theorem declaredLength_of_agreed {headers : HeaderMap}
    (colonless : ∀ entry ∈ headers.entries, COLON ∉ entry.1) {bytes : ℕ}
    (agreed : Rfc9112.contentLength? (Rfc9112.contentLength (wireFields headers)) =
      some bytes) : headers.declaredLength = some (min bytes ulongMax) := by
  obtain ⟨value, rest, before, numeral, after, values, parts, blanks, number, stops⟩ :=
    Rfc9112.exists_numeral_of_contentLength? agreed
  obtain ⟨nonempty, digits, same⟩ := Rfc9112.number?_eq_some number
  have lowered : lower (ascii "content-length") = ascii "content-length" := by decide
  rw [Rfc9112.contentLength, valuesOf_wireFields colonless] at values
  cases entries : headers.entries.filter fun entry => lower entry.1 = ascii "content-length" with
  | nil => simp [entries] at values
  | cons entry others =>
    simp only [entries, List.map_cons, List.cons.injEq] at values
    obtain ⟨outer, outerAfter, outerParts, outerBlanks, outerBlanksAfter⟩ := trim_parts entry.2
    rw [values.1, parts] at outerParts
    have whole : entry.2 = (outer ++ before) ++ numeral ++ (after ++ outerAfter) := by
      rw [outerParts]
      simp
    have converted : strtoul 10 entry.2 = some (min bytes ulongMax) := by
      rw [whole, strtoul_of_digits ?_ nonempty digits ?_, same]
      · intro byte byteMem
        rcases List.mem_append.mp byteMem with inOuter | inBefore
        · exact outerBlanks byte inOuter
        · exact blanks byte inBefore
      · intro byte byteMem
        cases after with
        | nil =>
          exact isDigit_of_isBlank byte
            (outerBlanksAfter byte (List.mem_of_mem_head? (by simpa using byteMem)))
        | cons first after => exact stops byte (by simpa using byteMem)
    simp only [HeaderMap.declaredLength, get_eq_head?, lowered, entries, List.map_cons,
      List.head?_cons, Option.map_some, converted, Option.getD_some]

/-- The length the codec works with, against the length that the written fields announce. -/
theorem declaredLength_of_requestFraming {headers : HeaderMap}
    (colonless : ∀ entry ∈ headers.entries, COLON ∉ entry.1) {bytes : ℕ}
    (framing : Rfc9112.requestFraming (wireFields headers) = .length bytes) :
    headers.declaredLength.getD 0 = min bytes ulongMax := by
  unfold Rfc9112.requestFraming at framing
  split at framing
  · split at framing <;> simp at framing
  split at framing
  · split at framing
    · rename_i agreed
      simp only [Rfc9112.Framing.length.injEq] at framing
      subst framing
      rw [declaredLength_of_agreed colonless agreed, Option.getD_some]
    · simp at framing
  · rename_i absent
    simp only [Rfc9112.Framing.length.injEq] at framing
    subst framing
    rw [declaredLength_of_absent colonless (by simpa using absent)]
    simp

/-! ## The body behind a request head -/

/-- What the codec forwards of the bytes behind a header block that announces a length. -/
def forwardedPart (overread bytes : ℕ) (after : Bytes) : Bytes :=
  if overread = 0 ∨ bytes ≤ overread then after.take bytes
  else (after.take bytes).drop overread

theorem pump_requestBody (examined : ℕ → UInt8) (head : HttpRequestHead) (bodyPrefix : Bytes)
    (rest : InStream) :
    (pumpBody examined (requestBody head bodyPrefix) rest).written =
      forwardedPart bodyPrefix.length (head.contentLength.getD 0) (bodyPrefix ++ rest.bytes) := by
  cases declared : head.contentLength with
  | none => simp [requestBody, declared, pumpBody, forwardedPart]
  | some bytes =>
    simp only [requestBody, declared, Option.getD_some, forwardedPart, List.length_eq_zero_iff]
    by_cases fresh : bodyPrefix = []
    · subst fresh
      by_cases positive : 0 < bytes
      · simp [lengthBody, positive, pumpBody, pump_stream]
      · obtain rfl : bytes = 0 := by omega
        simp [lengthBody, pumpBody]
    · by_cases whole : bytes ≤ bodyPrefix.length
      · simp [lengthBody, fresh, pumpBody, pump_buffer, whole,
          List.take_append_of_le_length whole]
      · have short : bodyPrefix.length ≤ bytes := by omega
        have remains : ¬bytes - bodyPrefix.length = 0 := by omega
        have whole' : bodyPrefix.take bytes = bodyPrefix := List.take_of_length_le short
        simp [lengthBody, fresh, Nat.min_eq_left short, remains, pumpBody, pump_stream, whole,
          List.take_append, whole']

end H1Codec

end ReverseProxy
