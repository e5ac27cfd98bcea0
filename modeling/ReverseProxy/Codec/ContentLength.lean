import ReverseProxy.Codec.H1.Fields
import ReverseProxy.Codec.H3.RoundTrip
import ReverseProxy.Codec.H3.Translation

/-!
# Declared lengths

All four head parsers take the first `Content-Length` field and pass it to
`strtoul`, which converts what it can of any text; none of them refuses a head for
it.  `ExactLength` is what a parser that takes the fields at their word would
guarantee, and `Declared` is the condition on the fields under which ours do.
-/

namespace ReverseProxy

open Text

/--
The length taken from `Content-Length` fields with these values: their common
value, which all of them write in digits, and none only when there is no field.
-/
def ExactLength (values : List Bytes) : Option ℕ → Prop
  | none => values = []
  | some length =>
    values ≠ [] ∧ length < 2 ^ 64 ∧ ∀ value ∈ values, Rfc9112.number? value = some length

/-- The values leave no doubt: there is none, or all write the same representable number. -/
def Declared (values : List Bytes) : Prop :=
  values = [] ∨
    ∃ length < 2 ^ 64, ∀ value ∈ values, Rfc9112.number? value = some length

theorem declared_of_exactLength {values : List Bytes} {length : Option ℕ}
    (taken : ExactLength values length) : Declared values := by
  cases length with
  | none => exact .inl taken
  | some length => exact .inr ⟨length, taken.2⟩

/-- A number and nothing else, apart from blanks around it, is converted as it is. -/
theorem strtoul_of_number? {before text after : Bytes} {length : ℕ} (small : length < 2 ^ 64)
    (blanks : ∀ byte ∈ before, isBlank byte = true)
    (blanksAfter : ∀ byte ∈ after, isBlank byte = true)
    (number : Rfc9112.number? text = some length) :
    strtoul 10 (before ++ text ++ after) = some length := by
  rcases Rfc9112.number?_eq_some number with ⟨nonempty, digits, same⟩
  have bound : ulongMax = 2 ^ 64 - 1 := rfl
  rw [strtoul_of_digits blanks nonempty digits, same, min_eq_left (by omega)]
  intro byte byteMem
  exact isDigit_of_isBlank byte (blanksAfter byte (List.mem_of_mem_head? byteMem))

/--
Converting the first of the fields is exact precisely when the fields agree.
`clean` is what a parser leaves to the reader of a value: the blanks around it, or
nothing.
-/
theorem exactLength_head?_iff {clean : Bytes → Bytes}
    (converts : ∀ value length, length < 2 ^ 64 → Rfc9112.number? (clean value) = some length →
      strtoul 10 value = some length) (values : List Bytes) :
    ExactLength (values.map clean) (values.head?.map fun value => (strtoul 10 value).getD 0) ↔
      Declared (values.map clean) := by
  refine ⟨declared_of_exactLength, ?_⟩
  rintro (absent | ⟨length, small, agree⟩)
  · rw [List.map_eq_nil_iff] at absent
    rw [absent]
    rfl
  · cases values with
    | nil => rfl
    | cons value values =>
      have first : strtoul 10 value = some length :=
        converts value length small (agree (clean value) (by simp))
      simp only [List.head?_cons, Option.map_some, first, Option.getD_some]
      exact ⟨by simp, small, agree⟩

/-- The same for the length that a head takes from its header map. -/
theorem exactLength_declaredLength_iff {clean : Bytes → Bytes}
    (converts : ∀ value length, length < 2 ^ 64 → Rfc9112.number? (clean value) = some length →
      strtoul 10 value = some length) {headers : HeaderMap} {values : List Bytes}
    (read : values = (headers.entries.filter fun entry =>
      lower entry.1 = ascii "content-length").map fun entry => clean entry.2) :
    ExactLength values headers.declaredLength ↔ Declared values := by
  have lowered : lower (ascii "content-length") = ascii "content-length" := by decide
  have split : values = ((headers.entries.filter fun entry =>
      lower entry.1 = ascii "content-length").map Prod.snd).map clean := by
    rw [read, List.map_map]
    rfl
  rw [split, HeaderMap.declaredLength, H1Codec.get_eq_head?, lowered]
  exact exactLength_head?_iff converts _

/-! ## The fields of a decoded list -/

namespace H3Codec

/-- A loop that collects one element a step, where the element qualifies. -/
theorem foldl_eq_append_filter {α β : Type} (collected : α → List β) {take : α → β → α}
    {keep : β → Bool} (one : ∀ start element, collected (take start element) =
      collected start ++ [element].filter keep) (start : α) (elements : List β) :
    collected (elements.foldl take start) = collected start ++ elements.filter keep := by
  induction elements generalizing start with
  | nil => simp
  | cons element elements ih =>
    rw [List.foldl_cons, ih, one, List.append_assoc, ← List.filter_append,
      List.singleton_append]

theorem isPseudo_eq_false_of_lower {name field : Bytes} (regular : isPseudo name = false)
    (named : lower field = name) : isPseudo field = false := by
  rw [isPseudo_eq_false_iff] at regular ⊢
  subst named
  rw [Ne, lower_eq_nil_iff, Ne, head?_lower_eq_colon_iff] at regular
  exact regular

variable {name : Bytes}

theorem filter_takeRequestField (regular : isPseudo name = false) (notHost : name ≠ ascii "host")
    (head : HttpRequestHead) (field : Bytes × Bytes) :
    (takeRequestField head field).headers.entries.filter (fun entry => lower entry.1 = name) =
      (head.headers.entries.filter fun entry => lower entry.1 = name) ++
        [field].filter fun entry => lower entry.1 = name := by
  have lowered : lower (ascii "host") = ascii "host" := by decide
  rw [entries_takeRequestField]
  by_cases authority : field.1 = ascii ":authority"
  · -- Only the entries of the host are touched.
    have other : lower field.1 ≠ name := by
      intro named
      have field_regular := isPseudo_eq_false_of_lower regular named
      rw [authority] at field_regular
      exact absurd field_regular (by decide)
    rw [if_pos authority, HeaderMap.entries_set, List.filter_append, List.filter_filter,
      List.filter_singleton, List.filter_singleton]
    simp only [lowered, Ne.symm notHost, other, decide_false]
    congr 1
    apply List.filter_congr
    intro entry _
    by_cases named : lower entry.1 = name
    · simp [named, notHost]
    · simp [named]
  · rw [if_neg authority]
    by_cases pseudo : isPseudo field.1 = true
    · have other : lower field.1 ≠ name := by
        intro named
        rw [isPseudo_eq_false_of_lower regular named] at pseudo
        exact absurd pseudo (by decide)
      simp [pseudo, other]
    · simp [pseudo]

theorem filter_takeResponseField (regular : isPseudo name = false) (head : HttpResponseHead)
    (field : Bytes × Bytes) :
    (takeResponseField head field).headers.entries.filter (fun entry => lower entry.1 = name) =
      (head.headers.entries.filter fun entry => lower entry.1 = name) ++
        [field].filter fun entry => lower entry.1 = name := by
  by_cases field_regular : isPseudo field.1 = false
  · rw [takeResponseField_of_regular head field_regular]
    simp
  · have other : lower field.1 ≠ name := fun named =>
      field_regular (isPseudo_eq_false_of_lower regular named)
    have kept : (takeResponseField head field).headers = head.headers := by
      unfold takeResponseField
      split_ifs with isStatus isPseudo
      · rfl
      · rfl
      · simp [isPseudo] at field_regular
    simp [kept, other]

/-- The values of a field in a decoded list, which carries them without blanks around. -/
theorem valuesOf_requestHeadFromHeaders (regular : isPseudo name = false)
    (notHost : name ≠ ascii "host") (raw : HeaderList) :
    Rfc9112.valuesOf name raw =
      ((requestHeadFromHeaders raw).headers.entries.filter fun entry => lower entry.1 = name).map
        fun entry => id entry.2 := by
  have entries := foldl_eq_append_filter
    (fun head : HttpRequestHead => head.headers.entries.filter fun entry => lower entry.1 = name)
    (filter_takeRequestField regular notHost) { version := ascii "HTTP/3" } raw
  exact (congrArg (List.map Prod.snd) entries).symm

theorem valuesOf_responseHeadFromHeaders (regular : isPseudo name = false) (raw : HeaderList) :
    Rfc9112.valuesOf name raw =
      ((responseHeadFromHeaders raw).headers.entries.filter fun entry => lower entry.1 = name).map
        fun entry => id entry.2 := by
  have entries := foldl_eq_append_filter
    (fun head : HttpResponseHead => head.headers.entries.filter fun entry => lower entry.1 = name)
    (filter_takeResponseField regular) { version := ascii "HTTP/3" } raw
  exact (congrArg (List.map Prod.snd) entries).symm

end H3Codec

/-! ## The four parsers -/

theorem strtoul_of_number?_trim (value : Bytes) (length : ℕ) (small : length < 2 ^ 64)
    (number : Rfc9112.number? (trim value) = some length) : strtoul 10 value = some length := by
  rcases trim_parts value with ⟨before, after, parts, blanks, blanksAfter⟩
  rw [parts]
  exact strtoul_of_number? small blanks blanksAfter number

theorem strtoul_of_number?_id (value : Bytes) (length : ℕ) (small : length < 2 ^ 64)
    (number : Rfc9112.number? (id value) = some length) : strtoul 10 value = some length := by
  have converted : strtoul 10 ([] ++ value ++ []) = some length :=
    strtoul_of_number? small (by simp) (by simp) number
  simpa using converted

/--
Whatever the fields of a header block or of a decoded header list, the length of the
head made of them is exact precisely when the `Content-Length` fields leave no doubt.
-/
theorem contentLength_exact_iff (block : Bytes) (list : HeaderList) :
    (∀ head, H1Codec.parseHeaderBlock block = .ok head →
      (ExactLength (Rfc9112.contentLength (H1Codec.receivedFields block)) head.contentLength ↔
        Declared (Rfc9112.contentLength (H1Codec.receivedFields block)))) ∧
    (∀ head, H1Codec.parseResponseBlock block = .ok head →
      (ExactLength (Rfc9112.contentLength (H1Codec.receivedFields block)) head.contentLength ↔
        Declared (Rfc9112.contentLength (H1Codec.receivedFields block)))) ∧
    (ExactLength (Rfc9112.contentLength list) (H3Codec.requestHeadFromHeaders list).contentLength ↔
      Declared (Rfc9112.contentLength list)) ∧
    (ExactLength (Rfc9112.contentLength list)
        (H3Codec.responseHeadFromHeaders list).contentLength ↔
      Declared (Rfc9112.contentLength list)) := by
  refine ⟨?_, ?_, ?_, ?_⟩
  · intro head parse
    rw [H1Codec.contentLength_of_parseHeaderBlock parse]
    apply exactLength_declaredLength_iff strtoul_of_number?_trim
    exact H1Codec.valuesOf_of_parseHeaderBlock parse _
  · intro head parse
    rw [H1Codec.contentLength_of_parseResponseBlock parse]
    apply exactLength_declaredLength_iff strtoul_of_number?_trim
    exact H1Codec.valuesOf_of_parseResponseBlock parse _
  · apply exactLength_declaredLength_iff strtoul_of_number?_id
    exact H3Codec.valuesOf_requestHeadFromHeaders (by decide) (by decide) list
  · apply exactLength_declaredLength_iff strtoul_of_number?_id
    exact H3Codec.valuesOf_responseHeadFromHeaders (by decide) list

/-- A negative length. -/
def negativeLengthBlock : Bytes :=
  ascii "POST / HTTP/1.1\r\nContent-Length: -1\r\n\r\n"

/-- Two lengths that differ. -/
def conflictingLengths : HeaderList :=
  [(ascii ":status", ascii "200"), (ascii "content-length", ascii "5"),
    (ascii "content-length", ascii "6")]

/-- A negative length is accepted as the largest one, and of two lengths the first is taken. -/
theorem contentLength_not_exact :
    (∃ head, H1Codec.parseHeaderBlock negativeLengthBlock = .ok head ∧
      head.contentLength = some (2 ^ 64 - 1) ∧
      ¬ExactLength (Rfc9112.contentLength (H1Codec.receivedFields negativeLengthBlock))
        head.contentLength) ∧
    (H3Codec.responseHeadFromHeaders conflictingLengths).contentLength = some 5 ∧
    ¬ExactLength (Rfc9112.contentLength conflictingLengths)
      (H3Codec.responseHeadFromHeaders conflictingLengths).contentLength := by
  have parse : ∃ head, H1Codec.parseHeaderBlock negativeLengthBlock = .ok head ∧
      head.contentLength = some (2 ^ 64 - 1) := ⟨_, rfl, by decide⟩
  rcases parse with ⟨head, parse, wrapped⟩
  have first : (H3Codec.responseHeadFromHeaders conflictingLengths).contentLength = some 5 := by
    decide
  refine ⟨⟨head, parse, wrapped, ?_⟩, first, ?_⟩
  · intro taken
    rw [wrapped] at taken
    exact absurd (taken.2.2 (ascii "-1") (by decide)) (by decide)
  · intro taken
    rw [first] at taken
    exact absurd (taken.2.2 (ascii "6") (by decide)) (by decide)

end ReverseProxy
