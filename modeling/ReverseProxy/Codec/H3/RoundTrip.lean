import ReverseProxy.Codec.H1.Message
import ReverseProxy.Codec.H3.Message

/-!
# Heads over an HTTP/3 hop

What `request_head_from_headers` and `response_head_from_headers` make of the
header lists that `H3Codec` writes.  The writer sends `:authority` together with
every stored field, and the reader turns `:authority` into a `host` entry of its
own, so a head that already has a `host` entry comes back with two.
-/

namespace ReverseProxy

open Text

namespace H3Codec

/-- The head was produced by one of the two request parsers. -/
def RequestParsed (head : HttpRequestHead) : Prop :=
  (∃ raw, H1Codec.parseHeaderBlock raw = .ok head) ∨ ∃ raw, head = requestHeadFromHeaders raw

/-- The head was produced by one of the two response parsers. -/
def ResponseParsed (head : HttpResponseHead) : Prop :=
  (∃ raw, H1Codec.parseResponseBlock raw = .ok head) ∨ ∃ raw, head = responseHeadFromHeaders raw

/-- The head that the peer reads when a request head is sent over HTTP/3. -/
def requestBack (head : HttpRequestHead) : HttpRequestHead :=
  requestHeadFromHeaders (lowerNames (requestHeaderList head))

/-- The head that the peer reads when a response head is sent over HTTP/3. -/
def responseBack (head : HttpResponseHead) : HttpResponseHead :=
  responseHeadFromHeaders (lowerNames (responseHeaderList head))

/-- A `host` field. -/
def isHost (entry : Bytes × Bytes) : Bool :=
  lower entry.1 = ascii "host"

/--
A request head survives the hop: its header list comes back with lower-case names
and without hop-by-hop fields, and with exactly one `host` entry, which is the
authority.
-/
structure RequestSurvives (head : HttpRequestHead) : Prop where
  method : (requestBack head).method = head.method
  scheme : (requestBack head).scheme = head.scheme
  authority : (requestBack head).authority = head.authority
  path : (requestBack head).path = head.path
  fields : ((requestBack head).headers.entries.filter fun entry => !isHost entry) =
    (lowerNames (carriedFields head.headers)).filter fun entry => !isHost entry
  host : (requestBack head).headers.entries.filter isHost = [(ascii "host", head.authority)]

/-- A response head survives the hop. -/
structure ResponseSurvives (head : HttpResponseHead) : Prop where
  statusCode : (responseBack head).statusCode = head.statusCode
  contentLength : (responseBack head).contentLength = head.contentLength
  fields : (responseBack head).headers.entries = lowerNames (carriedFields head.headers)

/-! ## What the parsers produce -/

theorem colonless_of_requestParsed {head : HttpRequestHead} (parsed : RequestParsed head)
    {entry : Bytes × Bytes} (entryMem : entry ∈ head.headers.entries) :
    entry.1.head? ≠ some COLON := by
  rcases parsed with ⟨raw, parse⟩ | ⟨raw, rfl⟩
  · obtain ⟨line, lines, split, method, target, version, -, -, -, -, -, rfl⟩ :=
      H1Codec.parseHeaderBlock_eq_ok parse
    rw [H1Codec.headers_requestHead] at entryMem
    intro starts
    exact (H1Codec.lineEntry_of_mem_parseHeaderLines split entryMem).colonless
      (List.mem_of_head? starts)
  · exact ((isPseudo_eq_false_iff _).mp (regular_of_mem_requestHeadFromHeaders entryMem)).2

variable {head : HttpResponseHead}

theorem colonless_of_responseParsed (parsed : ResponseParsed head) {entry : Bytes × Bytes}
    (entryMem : entry ∈ head.headers.entries) : entry.1.head? ≠ some COLON := by
  rcases parsed with ⟨raw, parse⟩ | ⟨raw, rfl⟩
  · obtain ⟨line, lines, split, version, status, -, -, -, rfl⟩ :=
      H1Codec.parseResponseBlock_eq_ok parse
    intro starts
    exact (H1Codec.lineEntry_of_mem_parseHeaderLines split entryMem).colonless
      (List.mem_of_head? starts)
  · exact ((isPseudo_eq_false_iff _).mp (regular_of_mem_responseHeadFromHeaders entryMem)).2

theorem toInt_range (value : ℤ) : -(2 ^ 31) ≤ toInt value ∧ toInt value < 2 ^ 31 := by
  have low := Int.le_bmod (x := value) (m := 2 ^ 32) (by decide)
  have high := Int.bmod_lt (x := value) (m := 2 ^ 32) (by decide)
  unfold toInt
  constructor <;> omega

theorem statusCode_range (parsed : ResponseParsed head) :
    -(2 ^ 31) ≤ head.statusCode ∧ head.statusCode < 2 ^ 31 := by
  rcases parsed with ⟨raw, parse⟩ | ⟨raw, rfl⟩
  · obtain ⟨line, lines, -, version, status, -, rfl, positive, rfl⟩ :=
      H1Codec.parseResponseBlock_eq_ok parse
    have high := H1Codec.extractInt_le version.2
    simp only [H1Codec.intMax] at high
    constructor <;> simp only <;> omega
  · suffices kept : ∀ (raw : HeaderList) (head : HttpResponseHead),
        (-(2 ^ 31) ≤ head.statusCode ∧ head.statusCode < 2 ^ 31) →
          -(2 ^ 31) ≤ (raw.foldl takeResponseField head).statusCode ∧
            (raw.foldl takeResponseField head).statusCode < 2 ^ 31 from
      kept raw _ (by decide)
    intro raw
    induction raw with
    | nil => exact fun head range => range
    | cons field raw ih =>
      intro head range
      apply ih
      unfold takeResponseField
      split
      · exact toInt_range _
      · split <;> exact range

theorem contentLength_of_responseParsed (parsed : ResponseParsed head) :
    head.contentLength = head.headers.declaredLength := by
  rcases parsed with ⟨raw, parse⟩ | ⟨raw, rfl⟩
  · obtain ⟨line, lines, -, version, status, -, -, -, rfl⟩ :=
      H1Codec.parseResponseBlock_eq_ok parse
    rfl
  · rfl

/-! ## What comes back -/

theorem isHopByHop_lower (name : Bytes) : isHopByHop (lower name) = isHopByHop name := by
  simp [isHopByHop]

theorem head?_lower_eq_colon_iff (name : Bytes) :
    (lower name).head? = some COLON ↔ name.head? = some COLON := by
  have onByte : ∀ byte, toLower byte = COLON ↔ byte = COLON :=
    forall_byte (by decide +kernel)
  cases name with
  | nil => simp [lower]
  | cons byte name => simp [lower, onByte]

theorem exists_of_mem_lowerNames {headers : HeaderMap} {field : Bytes × Bytes}
    (fieldMem : field ∈ lowerNames (carriedFields headers)) :
    ∃ entry ∈ headers.entries, field = (lower entry.1, entry.2) := by
  simp only [lowerNames, carriedFields, List.mem_map, List.mem_filter] at fieldMem
  rcases fieldMem with ⟨entry, ⟨entryMem, -⟩, rfl⟩
  exact ⟨entry, entryMem, rfl⟩

theorem colonless_lowerNames_carried {headers : HeaderMap}
    (colonless : ∀ entry ∈ headers.entries, entry.1.head? ≠ some COLON) :
    ∀ field ∈ lowerNames (carriedFields headers), field.1.head? ≠ some COLON := by
  intro field fieldMem
  rcases exists_of_mem_lowerNames fieldMem with ⟨entry, entryMem, rfl⟩
  rw [ne_eq, head?_lower_eq_colon_iff]
  exact colonless entry entryMem

theorem requestBack_eq {head : HttpRequestHead} (parsed : RequestParsed head)
    (method : head.method ≠ []) (path : head.path ≠ []) (scheme : head.scheme ≠ [])
    (authority : head.authority ≠ []) :
    (requestBack head).method = head.method ∧ (requestBack head).scheme = head.scheme ∧
      (requestBack head).authority = head.authority ∧ (requestBack head).path = head.path ∧
      (requestBack head).headers.entries =
        (ascii "host", head.authority) ::
          (lowerNames (carriedFields head.headers)).filter fun field => field.1 ≠ [] := by
  have colonless := colonless_lowerNames_carried fun entry => colonless_of_requestParsed parsed
  have pseudos : lowerNames (requestHeaderList head) =
      (ascii ":method", head.method) :: (ascii ":scheme", head.scheme) ::
        (ascii ":authority", head.authority) :: (ascii ":path", head.path) ::
        lowerNames (carriedFields head.headers) := by
    have lowerMethod : lower (ascii ":method") = ascii ":method" := by decide
    have lowerScheme : lower (ascii ":scheme") = ascii ":scheme" := by decide
    have lowerAuthority : lower (ascii ":authority") = ascii ":authority" := by decide
    have lowerPath : lower (ascii ":path") = ascii ":path" := by decide
    simp [requestHeaderList, lowerNames, method, path, scheme, authority, lowerMethod,
      lowerScheme, lowerAuthority, lowerPath]
  have start : [(ascii ":method", head.method), (ascii ":scheme", head.scheme),
      (ascii ":authority", head.authority), (ascii ":path", head.path)].foldl takeRequestField
        { version := ascii "HTTP/3" } =
      { method := head.method, version := ascii "HTTP/3", path := head.path,
        scheme := head.scheme, authority := head.authority,
        headers := ⟨[(ascii "host", head.authority)]⟩ } := rfl
  have whole := foldl_takeRequestField_of_colonless
    { method := head.method, version := ascii "HTTP/3", path := head.path,
      scheme := head.scheme, authority := head.authority,
      headers := ⟨[(ascii "host", head.authority)]⟩ } colonless
  simp only [List.foldl_cons, List.foldl_nil] at start
  simp only [requestBack, requestHeadFromHeaders, pseudos, List.foldl_cons, start, whole]
  simp

/-- The first value for a key that crosses the hop is the same on the other side. -/
theorem get_lowerNames_carried (headers : HeaderMap) {key : Bytes} (named : lower key ≠ [])
    (carried : isHopByHop key = false) :
    HeaderMap.get ⟨(lowerNames (carriedFields headers)).filter fun field => field.1 ≠ []⟩ key =
      headers.get key := by
  obtain ⟨entries⟩ := headers
  have hopByHopOf : ∀ entry : Bytes × Bytes, lower entry.1 = lower key →
      isHopByHop entry.1 = false := by
    intro entry same
    rw [← carried, ← isHopByHop_lower entry.1, same, isHopByHop_lower]
  simp only [HeaderMap.get, carriedFields, lowerNames, List.filter_map, List.find?_map,
    List.filter_filter, List.find?_filter, Option.map_map]
  congr 1
  congr 1
  funext entry
  by_cases same : lower entry.1 = lower key
  · have named' : lower entry.1 ≠ [] := by rw [same]; exact named
    simp [same, named, hopByHopOf entry same]
  · simp [same]

theorem mem_lowerNames_carried_of_mem {headers : HeaderMap} {entry : Bytes × Bytes}
    (entryMem : entry ∈ headers.entries) (carried : isHopByHop entry.1 = false) :
    (lower entry.1, entry.2) ∈ lowerNames (carriedFields headers) := by
  simp only [lowerNames, carriedFields, List.mem_map, List.mem_filter]
  exact ⟨entry, ⟨entryMem, by simp [carried]⟩, rfl⟩

theorem filter_named_eq_self {headers : HeaderMap}
    (named : ∀ entry ∈ headers.entries, entry.1 ≠ []) :
    ((lowerNames (carriedFields headers)).filter fun field => field.1 ≠ []) =
      lowerNames (carriedFields headers) := by
  rw [List.filter_eq_self]
  intro field fieldMem
  rcases exists_of_mem_lowerNames fieldMem with ⟨entry, entryMem, rfl⟩
  simpa using named entry entryMem

theorem isHopByHop_of_isHost {entry : Bytes × Bytes} (host : isHost entry = true) :
    isHopByHop entry.1 = false := by
  simp only [isHost, decide_eq_true_eq] at host
  rw [← isHopByHop_lower, host]
  decide

theorem requestSurvives_iff {head : HttpRequestHead} (parsed : RequestParsed head)
    (method : head.method ≠ []) (path : head.path ≠ []) (scheme : head.scheme ≠ [])
    (authority : head.authority ≠ []) :
    RequestSurvives head ↔
      ∀ entry ∈ head.headers.entries, lower entry.1 ≠ ascii "host" ∧ entry.1 ≠ [] := by
  obtain ⟨sameMethod, sameScheme, sameAuthority, samePath, entries⟩ :=
    requestBack_eq parsed method path scheme authority
  have hostEntry : isHost (ascii "host", head.authority) = true := by
    simp only [isHost, decide_eq_true_eq]
    decide
  constructor
  · intro survives entry entryMem
    constructor
    · intro host
      have isHostEntry : isHost entry = true := by simp [isHost, host]
      have carried := mem_lowerNames_carried_of_mem entryMem (isHopByHop_of_isHost isHostEntry)
      have hosts := survives.host
      rw [entries, List.filter_cons_of_pos hostEntry, List.cons.injEq,
        List.filter_eq_nil_iff] at hosts
      have named : lower entry.1 ≠ [] := by rw [host]; decide
      exact hosts.2 (lower entry.1, entry.2) (List.mem_filter.mpr ⟨carried, by simpa using named⟩)
        (by simpa [isHost] using host)
    · intro empty
      have carried := mem_lowerNames_carried_of_mem entryMem
        (by rw [empty]; decide : isHopByHop entry.1 = false)
      have kept : ([], entry.2) ∈ (requestBack head).headers.entries.filter
          fun entry => !isHost entry := by
        rw [survives.fields, List.mem_filter]
        rw [empty] at carried
        have notHost : ¬lower [] = ascii "host" := by decide
        exact ⟨carried, by simp [isHost, notHost]⟩
      rw [entries] at kept
      simp only [List.mem_filter, List.mem_cons, Prod.mk.injEq] at kept
      rcases kept.1 with ⟨impossible, -⟩ | ⟨-, impossible⟩
      · exact absurd impossible (by decide)
      · simp at impossible
  · intro clean
    have named : ∀ entry ∈ head.headers.entries, entry.1 ≠ [] :=
      fun entry entryMem => (clean entry entryMem).2
    have noHost : ∀ field ∈ lowerNames (carriedFields head.headers), ¬isHost field = true := by
      intro field fieldMem
      rcases exists_of_mem_lowerNames fieldMem with ⟨entry, entryMem, rfl⟩
      simpa [isHost] using (clean entry entryMem).1
    rw [filter_named_eq_self named] at entries
    refine ⟨sameMethod, sameScheme, sameAuthority, samePath, ?_, ?_⟩
    · rw [entries, List.filter_cons_of_neg (by simp [hostEntry])]
    · rw [entries, List.filter_cons_of_pos hostEntry, List.filter_eq_nil_iff.mpr noHost]

theorem responseBack_eq (parsed : ResponseParsed head) :
    (responseBack head).statusCode = head.statusCode ∧
      (responseBack head).contentLength = head.contentLength ∧
      (responseBack head).headers.entries =
        (lowerNames (carriedFields head.headers)).filter fun field => field.1 ≠ [] := by
  have colonless := colonless_lowerNames_carried fun entry => colonless_of_responseParsed parsed
  obtain ⟨low, high⟩ := statusCode_range parsed
  have status : toInt ((strtol 10 (toDecimal head.statusCode)).getD 0) = head.statusCode := by
    rw [strtol_toDecimal low high, Option.getD_some, toInt]
    exact Int.bmod_eq_of_le (by omega) (by omega)
  have start : takeResponseField { version := ascii "HTTP/3" }
      (lower (ascii ":status"), toDecimal head.statusCode) =
      { statusCode := head.statusCode, version := ascii "HTTP/3" } := by
    have lowerStatus : lower (ascii ":status") = ascii ":status" := by decide
    simp [takeResponseField, lowerStatus, status]
  have whole := foldl_takeResponseField_of_colonless
    { statusCode := head.statusCode, version := ascii "HTTP/3" } colonless
  have back : responseBack head =
      { statusCode := head.statusCode, version := ascii "HTTP/3",
        headers := ⟨(lowerNames (carriedFields head.headers)).filter fun field => field.1 ≠ []⟩,
        contentLength := HeaderMap.declaredLength
          ⟨(lowerNames (carriedFields head.headers)).filter fun field => field.1 ≠ []⟩ } := by
    simp only [responseBack, responseHeadFromHeaders, responseHeaderList, lowerNames,
      List.map_cons, List.foldl_cons, start]
    simp only [lowerNames] at whole
    rw [whole]
    simp
  refine ⟨by rw [back], ?_, by rw [back]⟩
  rw [back, contentLength_of_responseParsed parsed]
  simp only [HeaderMap.declaredLength]
  rw [get_lowerNames_carried _ (by decide) (by decide)]

theorem responseSurvives_iff (parsed : ResponseParsed head) :
    ResponseSurvives head ↔ ∀ entry ∈ head.headers.entries, entry.1 ≠ [] := by
  obtain ⟨sameStatus, sameLength, entries⟩ := responseBack_eq parsed
  constructor
  · intro survives entry entryMem empty
    have carried := mem_lowerNames_carried_of_mem entryMem
      (by rw [empty]; decide : isHopByHop entry.1 = false)
    rw [← survives.fields, entries, List.mem_filter, empty] at carried
    simp [lower] at carried
  · intro named
    exact ⟨sameStatus, sameLength, entries.trans (filter_named_eq_self named)⟩

/--
A head survives an HTTP/3 hop exactly when none of its fields is `host` or has an
empty name; for a response the second suffices.
-/
theorem survives_hop_iff (head : HttpRequestHead) (response : HttpResponseHead) :
    (RequestParsed head → head.method ≠ [] → head.path ≠ [] → head.scheme ≠ [] →
      head.authority ≠ [] →
        (RequestSurvives head ↔
          ∀ entry ∈ head.headers.entries, lower entry.1 ≠ ascii "host" ∧ entry.1 ≠ [])) ∧
    (ResponseParsed response →
      (ResponseSurvives response ↔ ∀ entry ∈ response.headers.entries, entry.1 ≠ [])) :=
  ⟨fun parsed method path scheme authority =>
    requestSurvives_iff parsed method path scheme authority,
    fun parsed => responseSurvives_iff parsed⟩

/-- A head that has crossed one hop has a `host` field, and does not survive the next. -/
theorem not_requestSurvives_requestBack {head : HttpRequestHead} (parsed : RequestParsed head)
    (method : head.method ≠ []) (path : head.path ≠ []) (scheme : head.scheme ≠ [])
    (authority : head.authority ≠ []) : ¬RequestSurvives (requestBack head) := by
  rcases requestBack_eq parsed method path scheme authority with
    ⟨sameMethod, sameScheme, sameAuthority, samePath, entries⟩
  have back : RequestParsed (requestBack head) := .inr ⟨_, rfl⟩
  rw [requestSurvives_iff back (sameMethod ▸ method) (samePath ▸ path) (sameScheme ▸ scheme)
    (sameAuthority ▸ authority), entries]
  intro clean
  have isHost : lower (ascii "host") = ascii "host" := by decide
  exact (clean _ List.mem_cons_self).1 isHost

/-- `GET http://a/b HTTP/1.1` with an `Accept` field and no `Host`. -/
def absoluteHead : HttpRequestHead :=
  { method := ascii "GET", path := ascii "/b", scheme := ascii "http", authority := ascii "a",
    absoluteTarget := true, headers := ⟨[(ascii "Accept", ascii "*/*")]⟩ }

/-- `GET /b HTTP/1.1` with a `Host` field. -/
def hostedHead : HttpRequestHead :=
  { method := ascii "GET", path := ascii "/b", scheme := ascii "http", authority := ascii "a",
    headers := ⟨[(ascii "Host", ascii "a")]⟩ }

theorem absoluteHead_survives_hop : RequestParsed absoluteHead ∧ RequestSurvives absoluteHead := by
  have parsed : RequestParsed absoluteHead :=
    .inl ⟨ascii "GET http://a/b HTTP/1.1\r\nAccept: */*\r\n\r\n", by decide⟩
  exact ⟨parsed, ((survives_hop_iff absoluteHead {}).1 parsed (by decide) (by decide)
    (by decide) (by decide)).mpr (by decide)⟩

theorem hostedHead_not_survives_hop :
    RequestParsed hostedHead ∧ hostedHead.method ≠ [] ∧ hostedHead.path ≠ [] ∧
      hostedHead.scheme ≠ [] ∧ hostedHead.authority ≠ [] ∧
      (requestBack hostedHead).headers.entries =
        [(ascii "host", ascii "a"), (ascii "host", ascii "a")] ∧
      ¬RequestSurvives hostedHead := by
  have parsed : RequestParsed hostedHead :=
    .inl ⟨ascii "GET /b HTTP/1.1\r\nHost: a\r\n\r\n", by decide⟩
  refine ⟨parsed, by decide, by decide, by decide, by decide, by decide, fun survives => ?_⟩
  exact absurd survives.host (by decide)

end H3Codec

end ReverseProxy
