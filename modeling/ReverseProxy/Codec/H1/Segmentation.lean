import ReverseProxy.Codec.H1.Stream

/-!
# Parsing does not depend on segmentation

The head, the keep-alive flag and the error that `H1Codec` reports are functions
of the byte stream alone: two segmentations of the same bytes give the same
outcome.  What does depend on the segmentation is where the bytes after the block
end up, which is the subject of `Codec.H1.Conservation`.
-/

namespace ReverseProxy

open Text

namespace H1Codec

theorem finishRequest_announced (raw left right : Bytes) :
    (finishRequest raw left).map ParsedRequest.announced =
      (finishRequest raw right).map ParsedRequest.announced := by
  unfold finishRequest
  cases parseHeaderBlock raw <;> rfl

/-- Whether a body ends at the close of the connection does not depend on what was read. -/
theorem responseBody_closeDelimited (head : HttpResponseHead) (left right : Bytes) :
    (responseBody head left).2 = (responseBody head right).2 := by
  unfold responseBody
  split
  · rfl
  · split
    · rfl
    · cases head.contentLength <;> rfl

theorem finishResponse_announced (raw left right : Bytes) :
    (finishResponse raw left).map ParsedResponse.announced =
      (finishResponse raw right).map ParsedResponse.announced := by
  unfold finishResponse
  cases parseResponseBlock raw with
  | error message => rfl
  | ok head =>
    simp only [Except.map, ParsedResponse.announced]
    rw [responseBody_closeDelimited head left right]

section Loop

variable {α β : Type} {finish : Bytes → Bytes → Except ErrorCode α} {view : α → β}

/-- The header loop announces the same result for all segmentations of a byte stream. -/
theorem readBlock_view_eq
    (indifferent : ∀ raw left right, (finish raw left).map view = (finish raw right).map view)
    {left right : InStream} (sameBytes : left.bytes = right.bytes)
    (sameEnd : left.ending.errorCode = right.ending.errorCode) :
    (readBlock finish [] left).1.map view = (readBlock finish [] right).1.map view := by
  cases found : left.bytes.dropInfix? crlfcrlf with
  | none =>
    rw [readBlock_of_missing finish [] left (by simpa using found),
      readBlock_of_missing finish [] right (by simpa [← sameBytes] using found), sameEnd]
  | some cut =>
    obtain ⟨block, after⟩ := cut
    obtain ⟨leftPrefix, leftRest, leftOutcome, -⟩ :=
      readBlock_of_cut finish left found
    obtain ⟨rightPrefix, rightRest, rightOutcome, -⟩ :=
      readBlock_of_cut finish right (sameBytes ▸ found)
    rw [leftOutcome, rightOutcome]
    exact indifferent _ _ _

/-- The header loop reports EOF exactly on a stream that ends without CRLFCRLF. -/
theorem readBlock_eq_eof_iff (noEof : ∀ raw bodyPrefix, finish raw bodyPrefix ≠ .error .eof)
    (stream : InStream) :
    (readBlock finish [] stream).1 = .error .eof ↔
      stream.ending.errorCode = .eof ∧ ¬crlfcrlf <:+: stream.bytes := by
  cases found : stream.bytes.dropInfix? crlfcrlf with
  | none =>
    rw [readBlock_of_missing finish [] stream (by simpa using found)]
    simp [dropInfix?_eq_none_iff.mp found]
  | some cut =>
    obtain ⟨block, after⟩ := cut
    obtain ⟨bodyPrefix, rest, outcome, -⟩ :=
      readBlock_of_cut finish stream found
    rw [outcome]
    have occurs : crlfcrlf <:+: stream.bytes :=
      ⟨block, after, (eq_of_dropInfix? found).symm⟩
    simp [noEof, occurs]

end Loop

theorem finishRequest_ne_eof (raw bodyPrefix : Bytes) :
    finishRequest raw bodyPrefix ≠ .error .eof := by
  unfold finishRequest
  cases parseHeaderBlock raw <;> simp

theorem finishResponse_ne_eof (raw bodyPrefix : Bytes) :
    finishResponse raw bodyPrefix ≠ .error .eof := by
  unfold finishResponse
  cases parseResponseBlock raw <;> simp

/--
Head parsing does not depend on segmentation: both parsers announce the same
head, keep-alive flag and error for any two segmentations of a byte stream, and
report EOF exactly when the stream ends before its first CRLFCRLF.
-/
theorem asyncParse_segmentation (left right : InStream) (sameBytes : left.bytes = right.bytes)
    (sameEnd : left.ending.errorCode = right.ending.errorCode) :
    (asyncParseRequest left).1.map ParsedRequest.announced =
        (asyncParseRequest right).1.map ParsedRequest.announced ∧
      (asyncParseResponse left).1.map ParsedResponse.announced =
        (asyncParseResponse right).1.map ParsedResponse.announced ∧
      ((asyncParseRequest left).1 = .error .eof ↔
        left.ending.errorCode = .eof ∧ ¬crlfcrlf <:+: left.bytes) ∧
      ((asyncParseResponse left).1 = .error .eof ↔
        left.ending.errorCode = .eof ∧ ¬crlfcrlf <:+: left.bytes) :=
  ⟨readBlock_view_eq finishRequest_announced sameBytes sameEnd,
    readBlock_view_eq finishResponse_announced sameBytes sameEnd,
    readBlock_eq_eof_iff finishRequest_ne_eof left,
    readBlock_eq_eof_iff finishResponse_ne_eof left⟩

/-- Two segmentations of one request; the second cuts the CRLFCRLF. -/
def requestWhole : InStream :=
  ⟨[⟨ascii "GET /a HTTP/1.1\r\nHost: b\r\n\r\n", by decide⟩], .error .eof⟩

/-- A request cut in its last line end. -/
def requestCut : InStream :=
  ⟨[⟨ascii "GET /a HTTP/1.1\r\nHost: b\r", by decide⟩, ⟨ascii "\n\r\n", by decide⟩], .fin⟩

theorem asyncParse_segmentation_cut :
    requestWhole.bytes = requestCut.bytes ∧
      (asyncParseRequest requestWhole).1.map ParsedRequest.announced =
        (asyncParseRequest requestCut).1.map ParsedRequest.announced := by
  have sameBytes : requestWhole.bytes = requestCut.bytes := by decide
  exact ⟨sameBytes, (asyncParse_segmentation requestWhole requestCut sameBytes rfl).1⟩

end H1Codec

end ReverseProxy
