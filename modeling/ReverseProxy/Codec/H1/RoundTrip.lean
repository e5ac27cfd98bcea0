import ReverseProxy.Codec.H1.Wire

/-!
# Heads that are parsed and written again

A head that `H1Codec` has parsed is written so that the codec parses it to the same head,
whatever the block contained: names and values come from single lines, the words of the
first line have no white space, and a numeral that did not fit into an `int` has been
replaced by one that does.  Only blanks in front of values, of the authority and of the
reason may be added, in texts of nothing but blanks.
-/

namespace ReverseProxy

open Text

namespace H1Codec

/-! ## Values up to blanks -/

theorem get_map_trimEntry (headers : HeaderMap) (key : Bytes) :
    HeaderMap.get ⟨headers.entries.map trimEntry⟩ key = (headers.get key).map trimLeft := by
  simp only [HeaderMap.get, List.find?_map, Option.map_map]
  rfl

variable {headers headers' : HeaderMap}

theorem trimLeft_get_of_same (same : headers.entries.map trimEntry = headers'.entries.map trimEntry)
    (key : Bytes) : (headers.get key).map trimLeft = (headers'.get key).map trimLeft := by
  rw [← get_map_trimEntry, same, get_map_trimEntry]

theorem declaredLength_of_same
    (same : headers.entries.map trimEntry = headers'.entries.map trimEntry) :
    headers.declaredLength = headers'.declaredLength := by
  have lengthOf : ∀ headers : HeaderMap, headers.declaredLength =
      ((headers.get (ascii "content-length")).map trimLeft).map
        fun value => (strtoul 10 value).getD 0 := by
    intro headers
    rw [HeaderMap.declaredLength, Option.map_map]
    congr 1
    funext value
    rw [Function.comp_apply, strtoul_trimLeft]
  rw [lengthOf headers, lengthOf headers', trimLeft_get_of_same same]

theorem trimLeft_getD_of_same
    (same : headers.entries.map trimEntry = headers'.entries.map trimEntry) (key : Bytes) :
    trimLeft ((headers.get key).getD []) = trimLeft ((headers'.get key).getD []) := by
  have getD : ∀ value : Option Bytes, trimLeft (value.getD []) = (value.map trimLeft).getD [] := by
    intro value
    cases value with
    | none => rfl
    | some value => rfl
  rw [getD, getD, trimLeft_get_of_same same]

/-! ## Requests -/

/-- The two heads are the same for a receiver; `parsed` has been written in a version of HTTP/1. -/
structure SameRequest (head parsed : HttpRequestHead) : Prop where
  method : parsed.method = head.method
  path : parsed.path = head.path
  scheme : parsed.scheme = head.scheme
  contentLength : parsed.contentLength = head.contentLength
  absoluteTarget : parsed.absoluteTarget = head.absoluteTarget
  version : parsed.version = wireH1Version head.version
  headers : parsed.headers.entries.map trimEntry = head.headers.entries.map trimEntry
  authority : trimLeft parsed.authority = trimLeft head.authority

theorem wireH1Version_ne_nil (version : Bytes) : wireH1Version version ≠ [] := by
  unfold wireH1Version
  split
  · rintro rfl
    rename_i isPrefix
    revert isPrefix
    decide
  · decide

theorem absoluteForm?_of_origin {method target version : Bytes} {headers : HeaderMap}
    (origin : (requestHead method target version headers).absoluteTarget = false) :
    absoluteForm? target = none := by
  cases form : absoluteForm? target with
  | none => rfl
  | some parts =>
    rw [requestHead, form] at origin
    cases origin

theorem sameRequest_requestHead {method target version : Bytes}
    (origin : absoluteForm? target = none)
    (same : headers'.entries.map trimEntry = headers.entries.map trimEntry) :
    SameRequest (requestHead method target version headers)
      (requestHead method target (wireH1Version version) headers') := by
  rw [requestHead, requestHead, origin]
  exact ⟨rfl, rfl, rfl, declaredLength_of_same same, rfl, rfl, same,
    trimLeft_getD_of_same same _⟩

theorem request_roundTrip {raw : Bytes} {head : HttpRequestHead}
    (parse : parseHeaderBlock raw = .ok head) (origin : head.absoluteTarget = false) :
    ∃ parsed, parseHeaderBlock (requestBytes head) = .ok parsed ∧ SameRequest head parsed := by
  rcases writable_of_parseHeaderBlock parse with ⟨writable, versionWord⟩
  rcases parseHeaderBlock_requestBytes writable versionWord (wireH1Version_ne_nil _) with
    ⟨headers', parse', same⟩
  refine ⟨_, parse', ?_⟩
  rcases parseHeaderBlock_eq_ok parse with
    ⟨line, lines, -, method, target, version, -, -, -, -, -, rfl⟩
  have form := absoluteForm?_of_origin origin
  have isPath : (requestHead method.1 target.1 version.1 (parseHeaderLines lines)).path =
      target.1 := by
    rw [requestHead, form]
  rw [method_requestHead, version_requestHead, isPath]
  rw [headers_requestHead] at same
  exact sameRequest_requestHead form same

/-! ## Responses -/

/-- The response is read as it was written. -/
structure SameResponse (head parsed : HttpResponseHead) : Prop where
  statusCode : parsed.statusCode = head.statusCode
  contentLength : parsed.contentLength = head.contentLength
  version : parsed.version = wireH1Version head.version
  headers : parsed.headers.entries.map trimEntry = head.headers.entries.map trimEntry
  reason : trimLeft parsed.reason = trimLeft head.reason

/-- A response head all of whose parts fit the words and lines they are written to. -/
structure WritableResponse (head : HttpResponseHead) : Prop where
  positive : 0 < head.statusCode
  fits : head.statusCode ≤ intMax
  versionWord : Word (wireH1Version head.version)
  reasonUnbroken : LF ∉ head.reason
  entries : ∀ entry ∈ head.headers.entries, LineEntry entry

theorem suffix_splitSign (text : Bytes) : (splitSign text).2 <:+ text := by
  rcases splitSign_parts text with ⟨sign, -, split⟩
  exact ⟨sign, split.symm⟩

theorem suffix_extractInt {text rest : Bytes} (extracts : (extractInt text).2 = some rest) :
    rest <:+ text := by
  unfold extractInt at extracts
  dsimp only at extracts
  split at extracts
  · cases extracts
  · have rests : ∀ n, ((splitSign (text.dropWhile isSpace)).2.drop n) <:+ text := fun n =>
      (List.drop_suffix n _).trans ((suffix_splitSign _).trans (List.dropWhile_suffix isSpace))
    split_ifs at extracts
    · cases extracts
      exact rests _
    · cases extracts
      exact rests _

theorem suffix_extractWord (text : Bytes) : (extractWord text).2 <:+ text :=
  (List.dropWhile_suffix _).trans (List.dropWhile_suffix isSpace)

theorem writable_of_parseResponseBlock {raw : Bytes} {head : HttpResponseHead}
    (parse : parseResponseBlock raw = .ok head) : WritableResponse head := by
  rcases parseResponseBlock_eq_ok parse with
    ⟨line, lines, split, version, status, rfl, rfl, positive, rfl⟩
  refine ⟨positive, extractInt_le _, word_wireH1Version (word_extractWord _), ?_,
    fun entry => lineEntry_of_mem_parseHeaderLines split⟩
  intro inReason
  have inRest := mem_of_mem_trimBlanks inReason
  cases extracts : (extractInt (extractWord (stripCr line)).2).2 with
  | none => simp [extracts] at inRest
  | some rest =>
    rw [extracts, Option.getD_some] at inRest
    have unbroken : LF ∉ line := newline_not_mem_of_mem_getlines (by rw [split]; simp)
    have inLine := ((suffix_extractInt extracts).trans (suffix_extractWord _)).subset inRest
    exact unbroken (mem_of_mem_stripCr inLine)

theorem extractInt_toDecimal {status : ℤ} (positive : 0 < status) (fits : status ≤ intMax)
    (reason : Bytes) :
    extractInt (SP :: (toDecimal status ++ SP :: reason)) = (status, some (SP :: reason)) := by
  rcases Int.eq_ofNat_of_zero_le positive.le with ⟨value, rfl⟩
  have space : isSpace SP = true := by decide
  have isDecimal : toDecimal (value : ℤ) = decimal value := rfl
  have stops : ∀ byte ∈ (SP :: reason).head?, digitValue 10 byte = none := by
    intro byte isFirst
    cases isFirst
    decide
  have digits : leadingDigits 10 (decimal value ++ SP :: reason) = decimalDigits value := by
    rw [decimal_eq]
    exact leadingDigits_of_digits (fun _ => decimalDigits_lt) stops
  have dropped : (decimal value ++ SP :: reason).drop (decimalDigits value).length =
      SP :: reason := by
    rw [decimal_eq, List.drop_left']
    rw [List.length_map]
  have low : ¬ (value : ℤ) < intMin := by
    unfold intMin
    omega
  unfold extractInt
  rw [List.dropWhile_cons_of_pos space, isDecimal, splitSign_decimal]
  dsimp only
  rw [digits]
  split
  · rename_i none
    exact absurd none (decimalDigits_ne_nil value)
  · simp only [Bool.false_eq_true, if_false, ofDigits_decimalDigits, dropped,
      if_neg (not_lt.mpr fits), if_neg low]

section Response

variable {head : HttpResponseHead} (writable : WritableResponse head)

include writable

theorem responseLines_unbroken : ∀ line ∈ responseLines head, LF ∉ line := by
  have space : isSpace LF = true := by decide
  have blank : LF ∉ ascii " " := by decide
  have noDigit : LF ∉ toDecimal head.statusCode := by
    rcases Int.eq_ofNat_of_zero_le writable.positive.le with ⟨value, isValue⟩
    rw [isValue]
    intro inDecimal
    have isDigit := isDigit_of_mem_decimal inDecimal
    revert isDigit
    decide
  intro line isLine
  rcases List.mem_cons.mp isLine with rfl | inFields
  · simp [statusLine, writable.versionWord.not_mem space, blank, noDigit,
      writable.reasonUnbroken]
  · exact wireLines_unbroken writable.entries line inFields

end Response

theorem nil_not_mem_responseLines (head : HttpResponseHead) : [] ∉ responseLines head := by
  have blank : ascii " " ≠ [] := by decide
  simp [responseLines, statusLine, blank, wireLine_ne_nil]

theorem dropInfix?_responseBytes {head : HttpResponseHead} (writable : WritableResponse head) :
    ∃ block, (responseBytes head).dropInfix? crlfcrlf = some (block, []) := by
  rw [responseBytes_eq_unlines]
  exact dropInfix?_unlines (by decide) (by simp [responseLines])
    (responseLines_unbroken writable) (nil_not_mem_responseLines head)

theorem parseResponseBlock_responseBytes {head : HttpResponseHead}
    (writable : WritableResponse head) :
    ∃ headers, parseResponseBlock (responseBytes head) =
        .ok
          { statusCode := head.statusCode, version := wireH1Version head.version,
            reason := trimBlanks (SP :: head.reason), headers,
            contentLength := headers.declaredLength } ∧
      headers.entries.map trimEntry = head.headers.entries.map trimEntry := by
  have lines : getlines LF (responseBytes head) =
      (statusLine head ++ [CR]) ::
        ((head.headers.entries.map HeaderMap.wireLine).map (· ++ [CR]) ++ [[CR]]) := by
    rw [responseBytes_eq_unlines, getlines_written (responseLines_unbroken writable)]
    rfl
  have version : extractWord (statusLine head) =
      (wireH1Version head.version, SP :: (toDecimal head.statusCode ++ SP :: head.reason)) := by
    have blank : ascii " " = [SP] := by decide
    have isLine : statusLine head = wireH1Version head.version ++
        SP :: (toDecimal head.statusCode ++ SP :: head.reason) := by
      simp [statusLine, blank]
    rw [isLine]
    apply extractWord_of_word writable.versionWord (wireH1Version_ne_nil _)
    intro byte isFirst
    cases isFirst
    decide
  have status := extractInt_toDecimal writable.positive writable.fits head.reason
  refine ⟨_, ?_, parseHeaderLines_wireLines fun entry isEntry =>
    (writable.entries entry isEntry).colonless⟩
  have nonempty : statusLine head ++ [CR] ≠ [] := by simp
  unfold parseResponseBlock
  rw [lines]
  split
  · simp_all
  · simp_all
  · rename_i line rest _ same
    rcases List.cons.inj same with ⟨rfl, rfl⟩
    simp only [stripCr_append_cr, version, status, if_neg (not_le.mpr writable.positive),
      Option.getD_some]

theorem response_roundTrip {raw : Bytes} {head : HttpResponseHead}
    (parse : parseResponseBlock raw = .ok head) :
    ∃ parsed, parseResponseBlock (responseBytes head) = .ok parsed ∧ SameResponse head parsed := by
  have writable := writable_of_parseResponseBlock parse
  rcases parseResponseBlock_responseBytes writable with ⟨headers, parse', same⟩
  have isLength : head.contentLength = head.headers.declaredLength := by
    rcases parseResponseBlock_eq_ok parse with ⟨line, lines, -, version, status, -, -, -, rfl⟩
    rfl
  refine ⟨_, parse', rfl, ?_, rfl, same, trimLeft_trimBlanks_blank head.reason⟩
  rw [isLength]
  exact declaredLength_of_same same

/--
Every head that the codec parses is written with its only CRLFCRLF at its end, and parsed
again to the same head: a request in origin-form with the same method, path, scheme, length
and fields, a response with the same status, length and fields, in both cases up to blanks
in front of values, of the authority and of the reason.
-/
theorem head_roundTrip :
    (∀ raw head, parseHeaderBlock raw = .ok head → head.absoluteTarget = false →
      (∃ block, (requestBytes head).dropInfix? crlfcrlf = some (block, [])) ∧
        ∃ parsed, parseHeaderBlock (requestBytes head) = .ok parsed ∧
          SameRequest head parsed) ∧
      ∀ raw head, parseResponseBlock raw = .ok head →
        (∃ block, (responseBytes head).dropInfix? crlfcrlf = some (block, [])) ∧
          ∃ parsed, parseResponseBlock (responseBytes head) = .ok parsed ∧
            SameResponse head parsed := by
  constructor
  · intro raw head parse origin
    rcases writable_of_parseHeaderBlock parse with ⟨writable, versionWord⟩
    exact ⟨dropInfix?_requestBytes writable versionWord, request_roundTrip parse origin⟩
  · intro raw head parse
    exact ⟨dropInfix?_responseBytes (writable_of_parseResponseBlock parse),
      response_roundTrip parse⟩

/-- A request without version, with a blank `Host` and a field without name. -/
def oddRequest : Bytes := ascii "GET /a\r\nHost: \t\r\nno colon\r\n: b\r\r\n\r\n"

/-- A response whose status does not fit into an `int`. -/
def hugeStatus : Bytes := ascii "SIP/2.0 99999999999 OK\r\nContent-Length:  5\r\n\r\n"

theorem head_roundTrip_odd :
    (∃ head, parseHeaderBlock oddRequest = .ok head ∧ head.absoluteTarget = false ∧
      ∃ parsed, parseHeaderBlock (requestBytes head) = .ok parsed ∧ SameRequest head parsed) ∧
      ∃ head, parseResponseBlock hugeStatus = .ok head ∧
        ∃ parsed, parseResponseBlock (responseBytes head) = .ok parsed ∧
          SameResponse head parsed := by
  constructor
  · have parse : parseHeaderBlock oddRequest = .ok
        { method := ascii "GET", version := [], path := ascii "/a", scheme := ascii "http",
          authority := ascii " \t",
          headers := ⟨[(ascii "Host", ascii " \t"), ([], ascii "b\r")]⟩ } := by
      decide +kernel
    exact ⟨_, parse, rfl, (head_roundTrip.1 _ _ parse rfl).2⟩
  · have parse : parseResponseBlock hugeStatus = .ok
        { statusCode := 2147483647, version := ascii "SIP/2.0",
          headers := ⟨[(ascii "Content-Length", ascii "5")]⟩, contentLength := some 5 } := by
      decide +kernel
    exact ⟨_, parse, (head_roundTrip.2 _ _ parse).2⟩

end H1Codec

end ReverseProxy
