import Mathlib.Data.List.DropRight
import ReverseProxy.Codec.H1.Delimiting

/-!
# The fields of a header block

What RFC 9112 finds in the lines of a header block that `H1Codec` parses, next to
the entries which the codec makes of the same lines.  Both split a line at its
first colon; the codec leaves blanks behind a value where RFC 9112 drops them.
-/

namespace ReverseProxy

open Text

namespace H1Codec

/-- The header lines of a block: those behind the first, up to an empty one. -/
def headerLines (raw : Bytes) : List Bytes :=
  ((getlines LF raw).tail.map stripCr).takeWhile (· ≠ [])

/-- The fields of a block by the rules of RFC 9112. -/
def receivedFields (raw : Bytes) : List Rfc9112.Field :=
  Rfc9112.fields (headerLines raw)

theorem trim_trimBlanks (text : Bytes) : trim (trimBlanks text) = trim text := by
  unfold trimBlanks
  split
  · rfl
  · simp only [trim, trimLeft, List.dropWhile_idempotent]

theorem field?_eq_parseHeaderLine (line : Bytes) :
    Rfc9112.field? line = (parseHeaderLine line).map fun entry => (entry.1, trim entry.2) := by
  rw [Rfc9112.field?, parseHeaderLine, Option.map_map]
  congr 1
  funext cut
  simp only [Function.comp_apply, trim_trimBlanks]

theorem fields_eq_map_filterMap (lines : List Bytes) :
    Rfc9112.fields lines =
      (lines.filterMap parseHeaderLine).map fun entry => (entry.1, trim entry.2) := by
  rw [Rfc9112.fields, List.map_filterMap]
  congr 1
  funext line
  exact field?_eq_parseHeaderLine line

/-- The values of one name are those of the entries, without the blanks around them. -/
theorem valuesOf_fields_eq {raw line : Bytes} {lines : List Bytes}
    (split : getlines LF raw = line :: lines) (name : Bytes) :
    Rfc9112.valuesOf name (receivedFields raw) =
      ((parseHeaderLines lines).entries.filter fun entry => lower entry.1 = name).map
        fun entry => trim entry.2 := by
  rw [receivedFields, headerLines, split, List.tail_cons, fields_eq_map_filterMap,
    Rfc9112.valuesOf, List.filter_map, List.map_map]
  rfl

theorem valuesOf_of_parseHeaderBlock {raw : Bytes} {head : HttpRequestHead}
    (parse : parseHeaderBlock raw = .ok head) (name : Bytes) :
    Rfc9112.valuesOf name (receivedFields raw) =
      (head.headers.entries.filter fun entry => lower entry.1 = name).map
        fun entry => trim entry.2 := by
  rcases parseHeaderBlock_eq_ok parse with
    ⟨line, lines, split, method, target, version, -, -, -, -, -, rfl⟩
  rw [headers_requestHead]
  exact valuesOf_fields_eq split name

theorem valuesOf_of_parseResponseBlock {raw : Bytes} {head : HttpResponseHead}
    (parse : parseResponseBlock raw = .ok head) (name : Bytes) :
    Rfc9112.valuesOf name (receivedFields raw) =
      (head.headers.entries.filter fun entry => lower entry.1 = name).map
        fun entry => trim entry.2 := by
  rcases parseResponseBlock_eq_ok parse with
    ⟨line, lines, split, version, status, -, -, -, rfl⟩
  exact valuesOf_fields_eq split name

theorem contentLength_of_parseResponseBlock {raw : Bytes} {head : HttpResponseHead}
    (parse : parseResponseBlock raw = .ok head) :
    head.contentLength = head.headers.declaredLength := by
  rcases parseResponseBlock_eq_ok parse with
    ⟨line, lines, -, version, status, -, -, -, rfl⟩
  rfl

/-! ## What the codec looks for in a field -/

/-- The first field of the name has the text in it, in this case and anywhere. -/
def Mentions (name text : Bytes) (headers : HeaderMap) : Prop :=
  ∃ value ∈ (Rfc9112.valuesOf name headers.entries).head?, text <:+: value

theorem mentions_iff {name text : Bytes} {headers : HeaderMap} (lowered : lower name = name) :
    Mentions name text headers ↔ ∃ value ∈ headers.get name, text <:+: value := by
  rw [Mentions, Rfc9112.valuesOf, get_eq_head?, lowered]

theorem contains_iff (pattern text : Bytes) : contains pattern text = true ↔ pattern <:+: text := by
  rw [contains, ← not_iff_not, Bool.not_eq_true, Option.isSome_eq_false_iff,
    Option.isNone_iff_eq_none, dropInfix?_eq_none_iff]

end H1Codec

end ReverseProxy
