import ReverseProxy.Codec.H1.Stream
import ReverseProxy.Codec.Pump
import ReverseProxy.Http1.Framing

/-!
# Bytes around a header block

A header read may return bytes beyond the CRLFCRLF.  This file settles when none
of them is lost: when the body source and the stream together still deliver
exactly what follows the block on the wire.

The number of bytes read past the block is fixed by the segmentation
(`overread`).  Everything survives exactly when the header read stops at the end
of the block or at the end of a body of known length, apart from chunked
responses, whose decoder never works on the bytes it reads.
-/

namespace ReverseProxy

open Text

namespace H1Codec

/-- What a parsed head announces to follow the header block. -/
inductive Announced where
  | nothing
  | length (bytes : ℕ)
  | chunked
  | untilEnd
  deriving DecidableEq, Repr

/-- A request has a body if it has a Content-Length. -/
def announcedRequest (head : HttpRequestHead) : Announced :=
  match head.contentLength with
  | some bytes => .length bytes
  | none => .nothing

/-- A response without a length is followed by a body up to the end of the connection. -/
def announcedResponse (head : HttpResponseHead) : Announced :=
  if statusHasNoBody head.statusCode then .nothing
  else if saysChunked head.headers then .chunked
  else
    match head.contentLength with
    | some bytes => .length bytes
    | none => .untilEnd

namespace Announced

/--
The body source yields exactly the announced part of `after`, the bytes behind
the header block, and the stream delivers the others.
-/
def Kept (after : Bytes) (body : Option BodySource) (rest : InStream) : Announced → Prop
  | .nothing => body = none ∧ rest.bytes = after
  | .length bytes =>
    ∀ examined, (pumpBody examined body rest).written = after.take bytes ∧
      (pumpBody examined body rest).rest.bytes = after.drop bytes ∧
      (bytes ≤ after.length → (pumpBody examined body rest).outcome = none)
  | .chunked =>
    -- also of a body that is cut or malformed, every byte is left for the decoder to read
    rest.bytes = after ∧
      ∀ examined coded content more, after = coded ++ more →
        Rfc9112.ChunkedBody coded content →
          (pumpBody examined body rest).written = content ∧
            (pumpBody examined body rest).rest.bytes = more ∧
            (pumpBody examined body rest).outcome = none
  | .untilEnd =>
    ∀ examined, (pumpBody examined body rest).written = after ∧
      (pumpBody examined body rest).rest.bytes = []

/-- The segmentations and wire bytes for which the codec keeps what follows the block. -/
def Survives (overread : ℕ) (after : Bytes) : Announced → Prop
  | .nothing => overread = 0
  | .length bytes => overread = 0 ∨ overread = bytes
  | .chunked =>
    overread = 0 ∧
      ∀ coded content more, after = coded ++ more → ¬Rfc9112.ChunkedBody coded content
  | .untilEnd => overread = 0

end Announced

theorem bytes_eq_append_iff (bodyPrefix : Bytes) (rest : InStream) :
    rest.bytes = bodyPrefix ++ rest.bytes ↔ bodyPrefix.length = 0 := by
  simp

/-- The body source for a length delivers that length of the wire bytes or has lost some. -/
theorem lengthBody_kept_iff (bytes : ℕ) (bodyPrefix : Bytes) (rest : InStream) :
    (Announced.length bytes).Kept (bodyPrefix ++ rest.bytes) (lengthBody bytes bodyPrefix) rest ↔
      bodyPrefix.length = 0 ∨ bodyPrefix.length = bytes := by
  simp only [Announced.Kept]
  by_cases fresh : bodyPrefix = []
  · subst fresh
    have body : lengthBody bytes [] = if 0 < bytes then some (.stream bytes) else none := by
      simp [lengthBody]
    simp only [List.length_nil, true_or, iff_true, List.nil_append, body]
    intro examined
    by_cases positive : 0 < bytes
    · obtain ⟨written, left, outcome⟩ := pump_stream examined bytes rest
      simp only [positive, if_true, pumpBody]
      refine ⟨written, left, fun enough => ?_⟩
      rw [outcome, if_pos enough]
    · obtain rfl : bytes = 0 := by omega
      simp [pumpBody]
  · have overlong := List.length_pos_iff.mpr fresh
    by_cases whole : bytes ≤ bodyPrefix.length
    · have body : lengthBody bytes bodyPrefix = some (.buffer (bodyPrefix.take bytes) 0) := by
        simp [lengthBody, fresh, Nat.min_eq_right whole]
      simp only [body, pumpBody, pump_buffer, List.drop_zero]
      constructor
      · intro kept
        obtain ⟨-, left, -⟩ := kept fun _ => 0
        have sameLength := congrArg List.length left
        simp only [List.length_drop, List.length_append] at sameLength
        omega
      · intro exact examined
        obtain rfl : bodyPrefix.length = bytes := by omega
        simp
    · have body : lengthBody bytes bodyPrefix =
          some (.stream (bytes - bodyPrefix.length)) := by
        have : ¬bytes - bodyPrefix.length = 0 := by omega
        simp [lengthBody, fresh, Nat.min_eq_left (by omega : bodyPrefix.length ≤ bytes), this]
      have lost : ¬(bodyPrefix.length = 0 ∨ bodyPrefix.length = bytes) := by omega
      simp only [lost, iff_false, body, pumpBody]
      intro kept
      obtain ⟨written, -, -⟩ := kept fun _ => 0
      rw [(pump_stream _ _ _).1] at written
      have sameLength := congrArg List.length written
      simp only [List.length_take, List.length_append] at sameLength
      omega

theorem requestBody_kept_iff (head : HttpRequestHead) (bodyPrefix : Bytes) (rest : InStream) :
    (announcedRequest head).Kept (bodyPrefix ++ rest.bytes) (requestBody head bodyPrefix) rest ↔
      (announcedRequest head).Survives bodyPrefix.length (bodyPrefix ++ rest.bytes) := by
  cases declared : head.contentLength with
  | none =>
    simp only [announcedRequest, requestBody, declared, Announced.Kept, Announced.Survives,
      true_and]
    exact bytes_eq_append_iff bodyPrefix rest
  | some bytes =>
    simp only [announcedRequest, requestBody, declared]
    exact lengthBody_kept_iff bytes bodyPrefix rest

/--
Bytes past the block do not reach the chunked decoder, and it never decodes a chunked body
whatever byte it happens to examine.
-/
theorem chunked_kept_iff (bodyPrefix : Bytes) (rest : InStream) :
    Announced.chunked.Kept (bodyPrefix ++ rest.bytes) (some (.chunked {})) rest ↔
      Announced.chunked.Survives bodyPrefix.length (bodyPrefix ++ rest.bytes) := by
  apply and_congr (bytes_eq_append_iff bodyPrefix rest)
  constructor
  · intro kept coded content more same coding
    exact pump_chunked_lf rest (kept (fun _ => LF) coded content more same coding).2.2
  · intro survives examined coded content more same coding
    exact absurd coding (survives coded content more same)

theorem responseBody_kept_iff (head : HttpResponseHead) (bodyPrefix : Bytes) (rest : InStream) :
    (announcedResponse head).Kept (bodyPrefix ++ rest.bytes) (responseBody head bodyPrefix).1
        rest ↔
      (announcedResponse head).Survives bodyPrefix.length (bodyPrefix ++ rest.bytes) := by
  unfold announcedResponse responseBody
  by_cases bodiless : statusHasNoBody head.statusCode = true
  · simp only [bodiless, if_true, Announced.Kept, Announced.Survives, true_and]
    exact bytes_eq_append_iff bodyPrefix rest
  by_cases chunks : saysChunked head.headers = true
  · simp only [bodiless, chunks, if_true]
    exact chunked_kept_iff bodyPrefix rest
  simp only [bodiless, chunks]
  cases head.contentLength with
  | some bytes => exact lengthBody_kept_iff bytes bodyPrefix rest
  | none =>
    simp only [Announced.Kept, Announced.Survives, Bool.false_eq_true, if_false, pumpBody,
      pump_streamEof, InStream.bytes_nil, and_true]
    rw [← bytes_eq_append_iff bodyPrefix rest]
    exact ⟨fun kept => kept fun _ => 0, fun same _ => same⟩

/--
No byte is lost, repeated or reordered around a header block exactly when the
header reads stop at its end, or at the end of a body of known length, and no
chunked response body follows.
-/
theorem asyncParse_kept_iff (stream : InStream) {block after : Bytes}
    (found : stream.bytes.dropInfix? crlfcrlf = some (block, after)) :
    (∀ head, parseHeaderBlock (block ++ crlfcrlf) = .ok head →
      ∃ parsed rest, asyncParseRequest stream = (.ok parsed, rest) ∧
        ((announcedRequest head).Kept after parsed.body rest ↔
          (announcedRequest head).Survives
            (overread stream (block ++ crlfcrlf).length) after)) ∧
    (∀ head, parseResponseBlock (block ++ crlfcrlf) = .ok head →
      ∃ parsed rest, asyncParseResponse stream = (.ok parsed, rest) ∧
        ((announcedResponse head).Kept after parsed.body rest ↔
          (announcedResponse head).Survives
            (overread stream (block ++ crlfcrlf).length) after)) := by
  constructor
  · intro head blockParse
    obtain ⟨bodyPrefix, rest, parse, rfl, reached⟩ :=
      asyncParseRequest_of_cut stream found blockParse
    refine ⟨_, rest, parse, ?_⟩
    rw [reached]
    exact requestBody_kept_iff head bodyPrefix rest
  · intro head blockParse
    obtain ⟨bodyPrefix, rest, parse, rfl, reached⟩ :=
      asyncParseResponse_of_cut stream found blockParse
    refine ⟨_, rest, parse, ?_⟩
    rw [reached]
    exact responseBody_kept_iff head bodyPrefix rest

/-- The head of the request that the following streams carry with the body `abcde`. -/
def postHead : HttpRequestHead :=
  { method := ascii "POST", path := ascii "/", scheme := ascii "http",
    headers := ⟨[(ascii "Content-Length", ascii "5")]⟩, contentLength := some 5 }

/-- Its header block, without the empty line. -/
def postBlock : Bytes := ascii "POST / HTTP/1.1\r\nContent-Length: 5"

/-- The block arrives by itself. -/
def postApart : InStream :=
  ⟨[⟨postBlock ++ crlfcrlf, by decide⟩, ⟨ascii "abcde", by decide⟩], .error .eof⟩

/-- The block arrives together with the first two bytes of the body. -/
def postTogether : InStream :=
  ⟨[⟨postBlock ++ crlfcrlf ++ ascii "ab", by decide⟩, ⟨ascii "cde", by decide⟩], .error .eof⟩

theorem asyncParse_kept_apart :
    ∃ parsed rest, asyncParseRequest postApart = (.ok parsed, rest) ∧
      (announcedRequest postHead).Kept (ascii "abcde") parsed.body rest := by
  have found : postApart.bytes.dropInfix? crlfcrlf = some (postBlock, ascii "abcde") := by
    decide +kernel
  obtain ⟨parsed, rest, parse, kept⟩ :=
    (asyncParse_kept_iff postApart found).1 postHead (by decide)
  refine ⟨parsed, rest, parse, kept.mpr ?_⟩
  left
  decide +kernel

theorem asyncParse_not_kept_together :
    asyncParseRequest postTogether =
        (.ok ⟨postHead, some (.stream 3), true⟩, ⟨[⟨ascii "cde", by decide⟩], .error .eof⟩) ∧
      postTogether.bytes.dropInfix? crlfcrlf = some (postBlock, ascii "abcde") ∧
      ¬(announcedRequest postHead).Kept (ascii "abcde") (some (.stream 3))
        ⟨[⟨ascii "cde", by decide⟩], .error .eof⟩ := by
  refine ⟨by decide +kernel, by decide +kernel, fun kept => ?_⟩
  have written := (kept fun _ => 0).1
  revert written
  decide +kernel

end H1Codec

end ReverseProxy
