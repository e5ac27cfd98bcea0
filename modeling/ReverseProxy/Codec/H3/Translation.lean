import ReverseProxy.Codec.H1.Wire
import ReverseProxy.Codec.H3.Message

/-!
# From HTTP/3 fields to an HTTP/1.1 head

HTTP/3 fields carry their length and may hold any bytes; an HTTP/1.1 head is
delimited by blanks, colons and line ends.  A request that arrives over HTTP/3 and
is forwarded over HTTP/1.1 keeps its meaning exactly when no part of it contains a
delimiter of the place it is written to.
-/

namespace ReverseProxy

open Text H1Codec

namespace H3Codec

/--
The written head has its only CRLFCRLF at its end, and parses to the same method,
path and fields, up to blanks in front of the values.
-/
def Reparses (head : HttpRequestHead) : Prop :=
  ∃ block parsed, (requestBytes head).dropInfix? crlfcrlf = some (block, []) ∧
    parseHeaderBlock (requestBytes head) = .ok parsed ∧ parsed.method = head.method ∧
    parsed.path = head.path ∧
    parsed.headers.entries.map trimEntry = head.headers.entries.map trimEntry

theorem version_foldl_takeRequestField (raw : HeaderList) (head : HttpRequestHead) :
    (raw.foldl takeRequestField head).version = head.version := by
  induction raw generalizing head with
  | nil => rfl
  | cons field raw ih =>
    rw [List.foldl_cons, ih]
    unfold takeRequestField
    split_ifs <;> rfl

/-- HTTP/3 has no version to carry over, so the written version is the codec's own. -/
theorem wireH1Version_requestHeadFromHeaders (raw : HeaderList) :
    wireH1Version (requestHeadFromHeaders raw).version = ascii "HTTP/1.1" := by
  have version : (requestHeadFromHeaders raw).version = ascii "HTTP/3" :=
    version_foldl_takeRequestField raw _
  rw [version]
  decide

theorem lf_mem_trimLeft {value : Bytes} (lfMem : LF ∈ value) : LF ∈ trimLeft value := by
  have parts : value.takeWhile isBlank ++ value.dropWhile isBlank = value :=
    List.takeWhile_append_dropWhile
  rw [← parts, List.mem_append] at lfMem
  rcases lfMem with inBlanks | inRest
  · have := List.mem_takeWhile_imp inBlanks
    exact absurd this (by decide)
  · exact inRest

/-- Entries that agree with parsed ones up to blanks fit on lines as well. -/
theorem lineEntry_of_map_trimEntry_eq {parsed entries : List (Bytes × Bytes)}
    (same : parsed.map trimEntry = entries.map trimEntry)
    (clean : ∀ entry ∈ parsed, LineEntry entry) : ∀ entry ∈ entries, LineEntry entry := by
  intro entry entryMem
  have trimmed : trimEntry entry ∈ parsed.map trimEntry := by
    rw [same]
    exact List.mem_map_of_mem entryMem
  obtain ⟨other, otherMem, agree⟩ := List.mem_map.mp trimmed
  simp only [trimEntry, Prod.mk.injEq] at agree
  obtain ⟨colonless, nameUnbroken, valueUnbroken⟩ := clean other otherMem
  refine ⟨agree.1 ▸ colonless, agree.1 ▸ nameUnbroken, fun lfMem => valueUnbroken ?_⟩
  have inOther := lf_mem_trimLeft lfMem
  rw [← agree.2] at inOther
  exact (List.dropWhile_sublist _).mem inOther

theorem writable_of_reparses {head : HttpRequestHead} (reparses : Reparses head) :
    Writable head := by
  obtain ⟨block, parsed, -, parse, sameMethod, samePath, sameEntries⟩ := reparses
  obtain ⟨line, lines, split, method, target, version, rfl, rfl, -, method_ne, target_ne, rfl⟩ :=
    parseHeaderBlock_eq_ok parse
  rw [method_requestHead] at sameMethod
  rw [headers_requestHead] at sameEntries
  obtain ⟨pathWord, path_ne⟩ := word_path_requestHead (word_extractWord _) target_ne
    (extractWord (stripCr line)).1 version.1 (parseHeaderLines lines)
  rw [samePath] at pathWord path_ne
  exact
    { method_ne := sameMethod ▸ method_ne
      methodWord := sameMethod ▸ word_extractWord _
      path_ne := path_ne
      pathWord := pathWord
      entries := lineEntry_of_map_trimEntry_eq sameEntries fun entry =>
        lineEntry_of_mem_parseHeaderLines split }

/-- A translated head parses back exactly when it fits and is in origin-form. -/
theorem reparses_iff_writable (raw : HeaderList) :
    Reparses (requestHeadFromHeaders raw) ↔
      Writable (requestHeadFromHeaders raw) ∧
        absoluteForm? (requestHeadFromHeaders raw).path = none := by
  have version := wireH1Version_requestHeadFromHeaders raw
  have versionWord : Word (wireH1Version (requestHeadFromHeaders raw).version) :=
    version ▸ word_http11
  have version_ne : wireH1Version (requestHeadFromHeaders raw).version ≠ [] := by
    rw [version]
    decide
  constructor
  · intro reparses
    have writable := writable_of_reparses reparses
    refine ⟨writable, ?_⟩
    obtain ⟨-, parsed, -, parse, -, samePath, -⟩ := reparses
    obtain ⟨headers, parse', -⟩ :=
      parseHeaderBlock_requestBytes writable versionWord version_ne
    rw [parse', Except.ok.injEq] at parse
    subst parse
    exact absoluteForm?_eq_none_of_path samePath
  · rintro ⟨writable, origin⟩
    obtain ⟨block, only⟩ := dropInfix?_requestBytes writable versionWord
    obtain ⟨headers, parse, same⟩ :=
      parseHeaderBlock_requestBytes writable versionWord version_ne
    refine ⟨block, _, only, parse, method_requestHead .., ?_, by simpa using same⟩
    simp [requestHead, origin]

/-! ## The condition on the decoded list -/

/-- The list has an authority. -/
def hasAuthority (raw : HeaderList) : Bool :=
  raw.any fun field => field.1 = ascii ":authority"

/--
The regular fields that are written: all but the `host` fields that a later
`:authority` replaces.
-/
def writtenFields : HeaderList → HeaderList
  | [] => []
  | field :: rest =>
    if isPseudo field.1 ∨ (lower field.1 = ascii "host" ∧ hasAuthority rest) then
      writtenFields rest
    else field :: writtenFields rest

/-- The fields in the order in which they are written, the last `:authority` as `host`. -/
def sentFields : HeaderList → HeaderList
  | [] => []
  | field :: rest =>
    if field.1 = ascii ":authority" then
      if hasAuthority rest then sentFields rest
      else (ascii "host", field.2) :: sentFields rest
    else if isPseudo field.1 ∨ (lower field.1 = ascii "host" ∧ hasAuthority rest) then
      sentFields rest
    else field :: sentFields rest

/-- The fields of a list without its pseudo-headers. -/
def regularFields (raw : HeaderList) : HeaderList :=
  raw.filter fun field => !isPseudo field.1

/--
No part of a decoded header list contains a delimiter of the place it is written
to: the method and the path are non-empty words, the path is not an absolute URL,
written names contain no colon and no line feed, written values no line feed.
-/
structure Delimited (raw : HeaderList) : Prop where
  method : ∃ value, lastValue (ascii ":method") raw = some value ∧ value ≠ [] ∧ Word value
  path : ∃ value, lastValue (ascii ":path") raw = some value ∧ value ≠ [] ∧ Word value ∧
    absoluteForm? value = none
  authority : ∀ value, lastValue (ascii ":authority") raw = some value → LF ∉ value
  fields : ∀ field ∈ writtenFields raw, LineEntry field

theorem hasAuthority_eq_isSome (raw : HeaderList) :
    hasAuthority raw = (lastValue (ascii ":authority") raw).isSome := by
  induction raw with
  | nil => rfl
  | cons field raw ih =>
    rw [lastValue_cons, Option.isSome_or, ← ih, hasAuthority, List.any_cons, hasAuthority]
    by_cases same : field.1 = ascii ":authority" <;> simp [same, Bool.or_comm]

theorem method_takeRequestField (head : HttpRequestHead) (field : Bytes × Bytes) :
    (takeRequestField head field).method =
      if field.1 = ascii ":method" then field.2 else head.method := by
  unfold takeRequestField
  split_ifs <;> rfl

theorem path_takeRequestField (head : HttpRequestHead) (field : Bytes × Bytes) :
    (takeRequestField head field).path =
      if field.1 = ascii ":path" then field.2 else head.path := by
  have distinct : ascii ":method" ≠ ascii ":path" := by decide
  unfold takeRequestField
  split_ifs with isMethod isPath
  · exact absurd (isMethod.symm.trans isPath) distinct
  all_goals rfl

theorem entries_takeRequestField (head : HttpRequestHead) (field : Bytes × Bytes) :
    (takeRequestField head field).headers.entries =
      if field.1 = ascii ":authority" then
        (head.headers.set (ascii "host") field.2).entries
      else if isPseudo field.1 then head.headers.entries
      else head.headers.entries ++ [field] := by
  by_cases regular : isPseudo field.1 = false
  · have notAuthority : field.1 ≠ ascii ":authority" :=
      ne_of_isPseudo_eq_false regular (by decide)
    simp [takeRequestField_of_regular head regular, notAuthority, regular]
  · have pseudo : isPseudo field.1 = true := by simpa using regular
    have method : ascii ":method" ≠ ascii ":authority" := by decide
    have path : ascii ":path" ≠ ascii ":authority" := by decide
    have scheme : ascii ":scheme" ≠ ascii ":authority" := by decide
    unfold takeRequestField
    split_ifs <;> simp_all

/-- What the field of one name sets is set by the last field of that name. -/
theorem get_foldl {get : HttpRequestHead → Bytes} {name : Bytes}
    (takes : ∀ head field,
      get (takeRequestField head field) = if field.1 = name then field.2 else get head)
    (raw : HeaderList) (head : HttpRequestHead) :
    get (raw.foldl takeRequestField head) = (lastValue name raw).getD (get head) := by
  induction raw generalizing head with
  | nil => rfl
  | cons field raw ih =>
    rw [List.foldl_cons, ih, lastValue_cons, takes]
    cases lastValue name raw with
    | some value => simp
    | none => split_ifs <;> simp

theorem method_requestHeadFromHeaders (raw : HeaderList) :
    (requestHeadFromHeaders raw).method = (lastValue (ascii ":method") raw).getD [] :=
  get_foldl method_takeRequestField raw _

theorem path_requestHeadFromHeaders (raw : HeaderList) :
    (requestHeadFromHeaders raw).path = (lastValue (ascii ":path") raw).getD [] :=
  get_foldl path_takeRequestField raw _

/-- Reading a list adds what is sent of it; an authority drops the `host` that was there. -/
theorem entries_foldl (raw : HeaderList) (head : HttpRequestHead) :
    (raw.foldl takeRequestField head).headers.entries =
      (head.headers.entries.filter fun entry =>
        !(lower entry.1 = ascii "host" && hasAuthority raw)) ++ sentFields raw := by
  have lowered : lower (ascii "host") = ascii "host" := by decide
  induction raw generalizing head with
  | nil => simp [hasAuthority, sentFields]
  | cons field raw ih =>
    have authorities : hasAuthority (field :: raw) =
        (decide (field.1 = ascii ":authority") || hasAuthority raw) := by
      simp [hasAuthority]
    rw [List.foldl_cons, ih, entries_takeRequestField, authorities, sentFields]
    by_cases authority : field.1 = ascii ":authority"
    · cases hasAuthority raw <;>
        simp [authority, lowered, HeaderMap.entries_set, List.filter_filter]
    · by_cases pseudo : isPseudo field.1 = true
      · simp [authority, pseudo]
      · cases hasAuthority raw with
        | false => simp [authority, pseudo]
        | true => by_cases host : lower field.1 = ascii "host" <;> simp [authority, pseudo, host]

theorem entries_requestHeadFromHeaders (raw : HeaderList) :
    (requestHeadFromHeaders raw).headers.entries = sentFields raw :=
  entries_foldl raw _

theorem mem_sentFields_iff (raw : HeaderList) (entry : Bytes × Bytes) :
    entry ∈ sentFields raw ↔
      entry ∈ writtenFields raw ∨
        entry.1 = ascii "host" ∧ lastValue (ascii ":authority") raw = some entry.2 := by
  induction raw with
  | nil => simp [writtenFields, sentFields, lastValue]
  | cons field raw ih =>
    rw [lastValue_cons, sentFields, writtenFields, hasAuthority_eq_isSome]
    by_cases authority : field.1 = ascii ":authority"
    · have pseudo : isPseudo (ascii ":authority") = true := by decide
      cases last : lastValue (ascii ":authority") raw with
      | some value => simp [authority, pseudo, ih, last]
      | none =>
        simp [authority, pseudo, ih, last, Prod.ext_iff, or_comm]
        grind
    · simp only [authority, if_false, Option.or_none]
      split_ifs
      · exact ih
      · rw [List.mem_cons, List.mem_cons, ih, or_assoc]

/-- What is sent under another name than `host` are the regular fields of the list. -/
theorem filter_sentFields {name : Bytes} (other : name ≠ ascii "host") (raw : HeaderList) :
    ((sentFields raw).filter fun entry => lower entry.1 = name) =
      (regularFields raw).filter fun entry => lower entry.1 = name := by
  have lowered : lower (ascii "host") = ascii "host" := by decide
  have pseudo : isPseudo (ascii ":authority") = true := by decide
  induction raw with
  | nil => rfl
  | cons field raw ih =>
    rw [sentFields, regularFields, List.filter_cons, ← regularFields]
    by_cases authority : field.1 = ascii ":authority"
    · have unnamed : ¬lower (ascii "host") = name := by
        rw [lowered]
        exact other.symm
      cases hasAuthority raw <;> simp [authority, pseudo, unnamed, ih]
    · by_cases skipped : isPseudo field.1 = true
      · simp [authority, skipped, ih]
      · by_cases replaced : lower field.1 = ascii "host" ∧ hasAuthority raw = true
        · simp [authority, skipped, replaced, other.symm, ih]
        · simp [authority, skipped, replaced, List.filter_cons, ih]

/-- A decoded list is free of delimiters exactly when its head fits where it is written to. -/
theorem delimited_iff_writable (raw : HeaderList) :
    Delimited raw ↔
      Writable (requestHeadFromHeaders raw) ∧
        absoluteForm? (requestHeadFromHeaders raw).path = none := by
  have method := method_requestHeadFromHeaders raw
  have path := path_requestHeadFromHeaders raw
  constructor
  · rintro ⟨⟨methodValue, lastMethod, method_ne, methodWord⟩,
      ⟨pathValue, lastPath, path_ne, pathWord, origin⟩, authority, fields⟩
    rw [lastMethod, Option.getD_some] at method
    rw [lastPath, Option.getD_some] at path
    rw [path]
    refine ⟨⟨by rwa [method], by rwa [method], by rwa [path], by rwa [path], ?_⟩, origin⟩
    intro entry entryMem
    rw [entries_requestHeadFromHeaders] at entryMem
    rcases (mem_sentFields_iff raw entry).mp entryMem with written | ⟨host, last⟩
    · exact fields entry written
    · exact ⟨by rw [host]; decide, by rw [host]; decide, authority _ last⟩
  · rintro ⟨writable, origin⟩
    refine ⟨?_, ?_, ?_, ?_⟩
    · cases last : lastValue (ascii ":method") raw with
      | none => exact absurd (by rw [method, last]; rfl) writable.method_ne
      | some value =>
        rw [last, Option.getD_some] at method
        exact ⟨value, rfl, method ▸ writable.method_ne, method ▸ writable.methodWord⟩
    · cases last : lastValue (ascii ":path") raw with
      | none => exact absurd (by rw [path, last]; rfl) writable.path_ne
      | some value =>
        rw [last, Option.getD_some] at path
        exact ⟨value, rfl, path ▸ writable.path_ne, path ▸ writable.pathWord, path ▸ origin⟩
    · intro value last
      refine (writable.entries (ascii "host", value) ?_).valueUnbroken
      rw [entries_requestHeadFromHeaders]
      exact (mem_sentFields_iff raw _).mpr (.inr ⟨rfl, last⟩)
    · intro field written
      exact writable.entries field
        (entries_requestHeadFromHeaders raw ▸ (mem_sentFields_iff raw field).mpr (.inl written))

/--
Translating a request from HTTP/3 to HTTP/1.1 cannot inject exactly when no part
of the decoded list contains a delimiter of the place it is written to.
-/
theorem reparses_iff_delimited (raw : HeaderList) :
    Reparses (requestHeadFromHeaders raw) ↔ Delimited raw := by
  rw [reparses_iff_writable, delimited_iff_writable]

/-- A request whose `:path` carries a line break and a second request behind it. -/
def splitRaw : HeaderList :=
  [(ascii ":method", ascii "GET"), (ascii ":scheme", ascii "https"),
    (ascii ":authority", ascii "a"),
    (ascii ":path", ascii "/ HTTP/1.1\r\n\r\nDELETE /b")]

theorem splitRaw_not_reparses :
    (requestBytes (requestHeadFromHeaders splitRaw)).dropInfix? crlfcrlf =
        some (ascii "GET / HTTP/1.1",
          ascii "DELETE /b HTTP/1.1\r\nhost: a\r\n\r\n") ∧
      ¬Reparses (requestHeadFromHeaders splitRaw) := by
  have cut : (requestBytes (requestHeadFromHeaders splitRaw)).dropInfix? crlfcrlf =
      some (ascii "GET / HTTP/1.1", ascii "DELETE /b HTTP/1.1\r\nhost: a\r\n\r\n") := by
    decide
  refine ⟨cut, ?_⟩
  rintro ⟨block, parsed, only, -⟩
  rw [cut] at only
  simp only [Option.some.injEq, Prod.mk.injEq] at only
  exact absurd only.2 (by decide)

end H3Codec

end ReverseProxy
