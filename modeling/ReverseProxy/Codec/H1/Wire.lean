import Mathlib.Data.List.DropRight
import ReverseProxy.Codec.H1.Stream

/-!
# Reading back written HTTP/1.1 heads

The heads that `H1Codec` writes are assembled line by line.  The lemmas say what
the parser of the same codec makes of them, line by line and word by word.
-/

namespace ReverseProxy

open Text

namespace H1Codec

/-- The lines of a written request head. -/
def requestLines (head : HttpRequestHead) : List Bytes :=
  requestLine head :: head.headers.entries.map HeaderMap.wireLine

/-- The lines of a written response head. -/
def responseLines (head : HttpResponseHead) : List Bytes :=
  statusLine head :: head.headers.entries.map HeaderMap.wireLine

theorem requestBytes_eq_unlines (head : HttpRequestHead) :
    requestBytes head = unlines crlf (requestLines head) ++ crlf := by
  simp [requestBytes, requestLines, HeaderMap.toWire_eq_unlines]

theorem responseBytes_eq_unlines (head : HttpResponseHead) :
    responseBytes head = unlines crlf (responseLines head) ++ crlf := by
  simp [responseBytes, responseLines, HeaderMap.toWire_eq_unlines]

theorem getlines_written {lines : List Bytes} (unbroken : ∀ line ∈ lines, LF ∉ line) :
    getlines LF (unlines crlf lines ++ crlf) = lines.map (· ++ [CR]) ++ [[CR]] := by
  have ending : getlines LF crlf = [[CR]] := by decide
  rw [crlf, getlines_unlines (by decide) unbroken, ← crlf, ending]

/-! ## Words -/

theorem Word.not_mem {text : Bytes} (word : Word text) {byte : UInt8}
    (space : isSpace byte = true) : byte ∉ text := by
  intro byteMem
  simp [word byte byteMem] at space

theorem extractWord_of_word {word : Bytes} (isWord : Word word) (nonempty : word ≠ [])
    {rest : Bytes} (stops : ∀ byte ∈ rest.head?, isSpace byte = true) :
    extractWord (word ++ rest) = (word, rest) := by
  obtain ⟨first, later, rfl⟩ := List.exists_cons_of_ne_nil nonempty
  have notSpace : ¬isSpace first = true := by simp [isWord first (by simp)]
  have start : ((first :: later) ++ rest).dropWhile isSpace = (first :: later) ++ rest :=
    List.dropWhile_cons_of_neg notSpace
  have inside : ∀ byte ∈ first :: later, (!isSpace byte) = true := by
    intro byte byteMem
    simp [isWord byte byteMem]
  have outside : rest.takeWhile (fun byte => !isSpace byte) = [] ∧
      rest.dropWhile (fun byte => !isSpace byte) = rest := by
    cases rest with
    | nil => simp
    | cons byte rest => simp [stops byte (by simp)]
  simp only [extractWord, start]
  rw [List.takeWhile_append_of_pos inside, List.dropWhile_append_of_pos inside, outside.1,
    outside.2, List.append_nil]

theorem extractWord_space (text : Bytes) : extractWord (SP :: text) = extractWord text := by
  have space : isSpace SP = true := by decide
  simp [extractWord, space]

theorem extractWord_line {method target version : Bytes} (methodWord : Word method)
    (method_ne : method ≠ []) (targetWord : Word target) (target_ne : target ≠ [])
    (versionWord : Word version) (version_ne : version ≠ []) :
    extractWord (method ++ ascii " " ++ target ++ ascii " " ++ version) =
        (method, SP :: (target ++ SP :: version)) ∧
      extractWord (SP :: (target ++ SP :: version)) = (target, SP :: version) ∧
      extractWord (SP :: version) = (version, []) := by
  have space : ∀ rest : Bytes, ∀ byte ∈ (SP :: rest).head?, isSpace byte = true := by
    intro rest byte byteMem
    obtain rfl : SP = byte := by simpa using byteMem
    decide
  have blank : ascii " " = [SP] := by decide
  refine ⟨?_, ?_, ?_⟩
  · simpa [blank] using
      extractWord_of_word methodWord method_ne (space (target ++ SP :: version))
  · rw [extractWord_space]
    exact extractWord_of_word targetWord target_ne (space version)
  · rw [extractWord_space]
    have stops : ∀ byte ∈ ([] : Bytes).head?, isSpace byte = true := by simp
    simpa using extractWord_of_word versionWord version_ne stops

/-! ## Header lines -/

@[simp]
theorem stripCr_append_cr (line : Bytes) : stripCr (line ++ [CR]) = line := by
  simp [stripCr]

theorem wireLine_ne_nil (entry : Bytes × Bytes) : HeaderMap.wireLine entry ≠ [] := by
  have : ascii ": " ≠ [] := by decide
  simp [HeaderMap.wireLine, this]

/-- An entry up to blanks in front of its value. -/
def trimEntry (entry : Bytes × Bytes) : Bytes × Bytes :=
  (entry.1, trimLeft entry.2)

theorem trimLeft_trimBlanks_blank (value : Bytes) :
    trimLeft (trimBlanks (SP :: value)) = trimLeft value := by
  have blank : isBlank SP = true := by decide
  unfold trimBlanks
  split
  · simp [trimLeft, blank]
  · simp only [trimLeft, List.dropWhile_cons_of_pos blank]
    exact List.dropWhile_idempotent ..

/-- A written header line parses to its entry, up to blanks in front of the value. -/
theorem parseHeaderLine_wireLine {entry : Bytes × Bytes} (colonless : COLON ∉ entry.1) :
    ∃ value, parseHeaderLine (HeaderMap.wireLine entry) = some (entry.1, value) ∧
      trimLeft value = trimLeft entry.2 := by
  refine ⟨trimBlanks (SP :: entry.2), ?_, trimLeft_trimBlanks_blank entry.2⟩
  have separator : ascii ": " = [COLON, SP] := by decide
  have cut := dropInfix?_singleton colonless (SP :: entry.2)
  simp [parseHeaderLine, HeaderMap.wireLine, separator, cut]

/-- Written header lines parse to their entries, up to blanks in front of the values. -/
theorem parseHeaderLines_wireLines {entries : List (Bytes × Bytes)}
    (colonless : ∀ entry ∈ entries, COLON ∉ entry.1) :
    (parseHeaderLines ((entries.map HeaderMap.wireLine).map (· ++ [CR]) ++ [[CR]])).entries.map
        trimEntry =
      entries.map trimEntry := by
  have blank : stripCr [CR] = [] := by decide
  have lines : ((((entries.map HeaderMap.wireLine).map (· ++ [CR]) ++ [[CR]]).map
      stripCr).takeWhile (· ≠ [])) = entries.map HeaderMap.wireLine := by
    have same : (((entries.map HeaderMap.wireLine).map (· ++ [CR])).map stripCr) =
        entries.map HeaderMap.wireLine := by
      simp [Function.comp_def]
    rw [List.map_append, same, List.takeWhile_append_of_pos]
    · simp [blank]
    · intro line lineMem
      obtain ⟨entry, -, rfl⟩ := List.mem_map.mp lineMem
      simpa using wireLine_ne_nil entry
  simp only [parseHeaderLines, lines]
  clear lines
  induction entries with
  | nil => rfl
  | cons entry entries ih =>
    obtain ⟨value, parse, sameValue⟩ := parseHeaderLine_wireLine (colonless entry (by simp))
    have tail := ih fun later laterMem => colonless later (by simp [laterMem])
    rw [List.map_cons, List.filterMap_cons_some parse, List.map_cons, tail]
    simp [trimEntry, sameValue]

/-! ## Whole heads -/

/-- A request head all of whose parts fit the words and lines they are written to. -/
structure Writable (head : HttpRequestHead) : Prop where
  method_ne : head.method ≠ []
  methodWord : Word head.method
  path_ne : head.path ≠ []
  pathWord : Word head.path
  entries : ∀ entry ∈ head.headers.entries, LineEntry entry

theorem wireLine_unbroken {entry : Bytes × Bytes} (clean : LineEntry entry) :
    LF ∉ HeaderMap.wireLine entry := by
  have separator : LF ∉ ascii ": " := by decide
  simp [HeaderMap.wireLine, clean.nameUnbroken, clean.valueUnbroken, separator]

theorem wireLines_unbroken {headers : HeaderMap}
    (entries : ∀ entry ∈ headers.entries, LineEntry entry) :
    ∀ line ∈ headers.entries.map HeaderMap.wireLine, LF ∉ line := by
  intro line lineMem
  obtain ⟨entry, entryMem, rfl⟩ := List.mem_map.mp lineMem
  exact wireLine_unbroken (entries entry entryMem)

theorem requestLine_unbroken {head : HttpRequestHead} (methodUnbroken : LF ∉ head.method)
    (pathUnbroken : LF ∉ head.path) (versionUnbroken : LF ∉ wireH1Version head.version) :
    LF ∉ requestLine head := by
  have blank : LF ∉ ascii " " := by decide
  simp [requestLine, methodUnbroken, pathUnbroken, versionUnbroken, blank]

theorem requestLine_ne_nil (head : HttpRequestHead) : requestLine head ≠ [] := by
  have blank : ascii " " ≠ [] := by decide
  simp [requestLine, blank]

theorem nil_not_mem_requestLines (head : HttpRequestHead) : [] ∉ requestLines head := by
  simp only [requestLines, List.mem_cons, List.mem_map, not_or, not_exists, not_and]
  exact ⟨(requestLine_ne_nil head).symm, fun entry _ => wireLine_ne_nil entry⟩

section Request

variable {head : HttpRequestHead} (writable : Writable head)
  (versionWord : Word (wireH1Version head.version))

include writable versionWord

theorem requestLines_unbroken : ∀ line ∈ requestLines head, LF ∉ line := by
  have space : isSpace LF = true := by decide
  intro line lineMem
  rcases List.mem_cons.mp lineMem with rfl | inFields
  · exact requestLine_unbroken (writable.methodWord.not_mem space)
      (writable.pathWord.not_mem space) (versionWord.not_mem space)
  · exact wireLines_unbroken writable.entries line inFields

theorem dropInfix?_requestBytes :
    ∃ block, (requestBytes head).dropInfix? crlfcrlf = some (block, []) := by
  rw [requestBytes_eq_unlines]
  exact dropInfix?_unlines (by decide) (by simp [requestLines])
    (requestLines_unbroken writable versionWord) (nil_not_mem_requestLines head)

/-- The parser reads a written head back, up to blanks in front of the values. -/
theorem parseHeaderBlock_requestBytes (version_ne : wireH1Version head.version ≠ []) :
    ∃ headers, parseHeaderBlock (requestBytes head) =
        .ok (requestHead head.method head.path (wireH1Version head.version) headers) ∧
      headers.entries.map trimEntry = head.headers.entries.map trimEntry := by
  have lines : getlines LF (requestBytes head) =
      (requestLine head ++ [CR]) ::
        ((head.headers.entries.map HeaderMap.wireLine).map (· ++ [CR]) ++ [[CR]]) := by
    rw [requestBytes_eq_unlines, getlines_written (requestLines_unbroken writable versionWord)]
    rfl
  obtain ⟨first, second, third⟩ := extractWord_line writable.methodWord writable.method_ne
    writable.pathWord writable.path_ne versionWord version_ne
  refine ⟨_, ?_, parseHeaderLines_wireLines fun entry entryMem =>
    (writable.entries entry entryMem).colonless⟩
  have nonempty : requestLine head ++ [CR] ≠ [] := by simp
  unfold parseHeaderBlock
  rw [lines]
  split
  · simp_all
  · simp_all
  · rename_i line rest _ same
    obtain ⟨rfl, rfl⟩ := List.cons.inj same
    simp only [stripCr_append_cr, requestLine, first, second, third, writable.method_ne,
      writable.path_ne, or_self, if_false]

end Request

theorem word_of_absoluteForm? {target scheme authority path : Bytes} (isWord : Word target)
    (form : absoluteForm? target = some (scheme, authority, path)) :
    Word authority ∧ Word path ∧ path ≠ [] := by
  have slashWord : isSpace SLASH = false := by decide
  unfold absoluteForm? at form
  split at form
  · simp at form
  · simp at form
  · rename_i before after _ cut
    have inTarget : Word after := by
      intro byte byteMem
      apply isWord
      rw [eq_of_dropInfix? cut]
      simp [byteMem]
    split at form
    · simp only [Option.some.injEq, Prod.mk.injEq] at form
      obtain ⟨-, rfl, rfl⟩ := form
      refine ⟨inTarget, ?_, by simp⟩
      intro byte byteMem
      obtain rfl : byte = SLASH := by simpa using byteMem
      exact slashWord
    · rename_i authority' path' slash
      simp only [Option.some.injEq, Prod.mk.injEq] at form
      obtain ⟨-, rfl, rfl⟩ := form
      rw [eq_of_dropInfix? slash] at inTarget
      refine ⟨fun byte byteMem => inTarget byte (by simp [byteMem]), ?_, by simp⟩
      intro byte byteMem
      rcases List.mem_cons.mp byteMem with rfl | later
      · exact slashWord
      · exact inTarget byte (by simp [later])

theorem word_path_requestHead {target : Bytes} (isWord : Word target) (nonempty : target ≠ [])
    (method version : Bytes) (headers : HeaderMap) :
    Word (requestHead method target version headers).path ∧
      (requestHead method target version headers).path ≠ [] := by
  unfold requestHead
  cases form : absoluteForm? target with
  | none => exact ⟨isWord, nonempty⟩
  | some parts =>
    obtain ⟨scheme, authority, path⟩ := parts
    exact (word_of_absoluteForm? isWord form).2

theorem word_http11 : Word (ascii "HTTP/1.1") := by
  have spaceless : (ascii "HTTP/1.1").all (fun byte => isSpace byte = false) = true := by decide
  intro byte byteMem
  exact of_decide_eq_true (List.all_eq_true.mp spaceless byte byteMem)

theorem word_wireH1Version {version : Bytes} (isWord : Word version) :
    Word (wireH1Version version) := by
  unfold wireH1Version
  split
  · exact isWord
  · exact word_http11

/-- A request-target that the parser takes for its own path is not in absolute-form. -/
theorem absoluteForm?_eq_none_of_path {method target version : Bytes} {headers : HeaderMap}
    (same : (requestHead method target version headers).path = target) :
    absoluteForm? target = none := by
  cases form : absoluteForm? target with
  | none => rfl
  | some parts =>
    obtain ⟨scheme, authority, path⟩ := parts
    simp only [requestHead, form] at same
    subst same
    unfold absoluteForm? at form
    split at form
    · simp at form
    · simp at form
    · rename_i before after cut
      have split := congrArg List.length (eq_of_dropInfix? cut)
      have separator : (ascii "://").length = 3 := by decide
      simp only [List.length_append, separator] at split
      split at form
      · simp only [Option.some.injEq, Prod.mk.injEq] at form
        rw [← form.2.2, List.length_singleton] at split
        omega
      · rename_i authority' path' slash
        have inner := congrArg List.length (eq_of_dropInfix? slash)
        simp only [Option.some.injEq, Prod.mk.injEq] at form
        rw [← form.2.2] at split
        simp only [List.length_append, List.length_cons, List.length_nil] at inner split
        omega

theorem writable_of_parseHeaderBlock {raw : Bytes} {head : HttpRequestHead}
    (parse : parseHeaderBlock raw = .ok head) :
    Writable head ∧ Word (wireH1Version head.version) := by
  obtain ⟨line, lines, split, method, target, version, rfl, rfl, rfl, method_ne, target_ne, rfl⟩ :=
    parseHeaderBlock_eq_ok parse
  obtain ⟨pathWord, path_ne⟩ := word_path_requestHead (word_extractWord _) target_ne
    (extractWord (stripCr line)).1 _ (parseHeaderLines lines)
  constructor
  · exact
      { method_ne := by simpa using method_ne
        methodWord := by simpa using word_extractWord _
        path_ne := path_ne
        pathWord := pathWord
        entries := fun entry entryMem =>
          lineEntry_of_mem_parseHeaderLines split (by simpa using entryMem) }
  · rw [version_requestHead]
    exact word_wireH1Version (word_extractWord _)

theorem word_authority_of_absolute {raw : Bytes} {head : HttpRequestHead}
    (parse : parseHeaderBlock raw = .ok head) (absolute : head.absoluteTarget = true) :
    Word head.authority := by
  obtain ⟨line, lines, -, method, target, version, rfl, rfl, rfl, -, -, rfl⟩ :=
    parseHeaderBlock_eq_ok parse
  unfold requestHead at absolute ⊢
  cases form : absoluteForm? (extractWord (extractWord (stripCr line)).2).1 with
  | none => simp [form] at absolute
  | some parts =>
    obtain ⟨scheme, authority, path⟩ := parts
    exact (word_of_absoluteForm? (word_extractWord _) form).1

theorem contentLength_of_parseHeaderBlock {raw : Bytes} {head : HttpRequestHead}
    (parse : parseHeaderBlock raw = .ok head) :
    head.contentLength = head.headers.declaredLength := by
  obtain ⟨line, lines, -, method, target, version, -, -, -, -, -, rfl⟩ :=
    parseHeaderBlock_eq_ok parse
  rw [contentLength_requestHead, headers_requestHead]

end H1Codec

end ReverseProxy
