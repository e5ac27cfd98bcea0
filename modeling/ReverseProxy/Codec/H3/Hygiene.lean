import ReverseProxy.Codec.H3.RoundTrip

/-!
# The header lists that are sent over HTTP/3

A name with a colon in front has a meaning of its own in HTTP/3, and fields that describe a
connection must not be carried over it (RFC 9113, 8.2.2).  What a parser of either protocol
puts into a head, and what `H3Codec` leaves out of it when it writes the head, together keep
both out of the list that is sent.
-/

namespace ReverseProxy

open Text

namespace H3Codec

/-- The fields that describe a connection. -/
def connectionFields : List Bytes :=
  [ascii "connection", ascii "keep-alive", ascii "proxy-connection", ascii "transfer-encoding",
    ascii "upgrade"]

/-- The pseudo-headers of a request. -/
def requestPseudos : List Bytes :=
  [ascii ":method", ascii ":scheme", ascii ":authority", ascii ":path"]

/-- That of a response. -/
def responsePseudos : List Bytes := [ascii ":status"]

/--
A list for these fields has the pseudo-headers in front and no other ones, no field that
describes a connection, and all other fields in their order.
-/
structure Hygienic (pseudos : List Bytes) (fields list : HeaderList) : Prop where
  starts : pseudos <+: list.map Prod.fst
  regular : ∀ field ∈ list.drop pseudos.length, field.1.head? ≠ some COLON
  endToEnd : ∀ field ∈ list, lower field.1 ∉ connectionFields
  others : list.drop pseudos.length =
    fields.filter fun field => lower field.1 ∉ connectionFields

theorem carriedFields_eq (headers : HeaderMap) :
    carriedFields headers =
      headers.entries.filter fun field => lower field.1 ∉ connectionFields := by
  apply List.filter_congr
  intro field _
  rw [isHopByHop, decide_not]
  rfl

theorem hygienic_of_eq_append {names : List Bytes} {headers : HeaderMap} {list pseudos : HeaderList}
    (isList : list = pseudos ++ carriedFields headers) (isNames : pseudos.map Prod.fst = names)
    (named : ∀ name ∈ names, lower name ∉ connectionFields)
    (colonless : ∀ entry ∈ headers.entries, entry.1.head? ≠ some COLON) :
    Hygienic names headers.entries list := by
  have rest : list.drop names.length = carriedFields headers := by
    rw [isList, ← isNames, List.length_map, List.drop_left]
  refine ⟨?_, ?_, ?_, ?_⟩
  · rw [isList, List.map_append, isNames]
    exact List.prefix_append _ _
  · rw [rest]
    intro field isField
    exact colonless field (List.mem_of_mem_filter isField)
  · intro field isField
    rw [isList] at isField
    rcases List.mem_append.mp isField with isPseudo | isCarried
    · apply named
      rw [← isNames]
      exact List.mem_map_of_mem isPseudo
    · rw [carriedFields_eq, List.mem_filter] at isCarried
      exact of_decide_eq_true isCarried.2
  · rw [rest, carriedFields_eq]

/--
Whatever block of HTTP/1.1 or decoded list of HTTP/3 a head comes from, the list that is sent
for it starts with the pseudo-headers of a request or a response, has no further ones and no
field that describes a connection, and carries all other fields in their order.
-/
theorem header_hygiene :
    (∀ head, RequestParsed head →
      Hygienic requestPseudos head.headers.entries (requestHeaderList head)) ∧
      ∀ head, ResponseParsed head →
        Hygienic responsePseudos head.headers.entries (responseHeaderList head) := by
  constructor
  · intro head parsed
    exact hygienic_of_eq_append rfl rfl (by decide) fun _ => colonless_of_requestParsed parsed
  · intro head parsed
    have isList : responseHeaderList head =
        [(ascii ":status", toDecimal head.statusCode)] ++ carriedFields head.headers := rfl
    exact hygienic_of_eq_append isList rfl (by decide) fun _ => colonless_of_responseParsed parsed

/-- A request that tries to smuggle a `:path` and its framing to the next hop. -/
def smuggled : Bytes :=
  ascii "GET /a HTTP/1.1\r\n:path: /b\r\nTransfer-ENCODING: chunked\r\nAccept: x\r\n\r\n"

/-- The head of `smuggled`: the name in front of the first colon is empty. -/
def smuggledHead : HttpRequestHead :=
  { method := ascii "GET", path := ascii "/a", scheme := ascii "http",
    headers := ⟨[([], ascii "path: /b"), (ascii "Transfer-ENCODING", ascii "chunked"),
      (ascii "Accept", ascii "x")]⟩ }

theorem header_hygiene_smuggled :
    H1Codec.parseHeaderBlock smuggled = .ok smuggledHead ∧
      Hygienic requestPseudos smuggledHead.headers.entries (requestHeaderList smuggledHead) := by
  have parse : H1Codec.parseHeaderBlock smuggled = .ok smuggledHead := by decide +kernel
  exact ⟨parse, header_hygiene.1 smuggledHead (Or.inl ⟨smuggled, parse⟩)⟩

end H3Codec

end ReverseProxy
