import ReverseProxy.Http1.Framing

/-!
# Responses in a row

A server answers a request with any number of interim responses and one final response
(RFC 9110 §15).  Every framing but the one that runs to the end of the connection lets a
reader find the end of a message without looking behind it: two messages that begin the
same text are the same message.  A reader that has read one complete final response of an
answer has therefore read all of the answer and nothing else.
-/

namespace Rfc9112

open Text

/-! ## Chunked bodies end where they end -/

theorem leadingDigits_hex_append {text rest : Bytes}
    (digits : ∀ byte ∈ text, (digitValue 16 byte).isSome)
    (stops : ∀ byte ∈ rest.head?, digitValue 16 byte = none) :
    leadingDigits 16 (text ++ rest) = leadingDigits 16 text := by
  induction text with
  | nil =>
    cases rest with
    | nil => rfl
    | cons byte rest => simp [leadingDigits, stops byte (by simp)]
  | cons byte text ih =>
    have tail := ih fun later laterMem => digits later (by simp [laterMem])
    simp [leadingDigits, tail]

theorem digitValue_of_isBlank : ∀ byte, isBlank byte = true → digitValue 16 byte = none :=
  forall_byte (by decide +kernel)

theorem ChunkSizeLine.size_eq {line : Bytes} {size : ℕ} (isSize : ChunkSizeLine line size) :
    size = ofDigits 16 (leadingDigits 16 line) := by
  rcases isSize with ⟨numeral, extension, rfl, -, digits, rfl, stops, -, -⟩
  rw [leadingDigits_hex_append digits]
  intro byte byteMem
  rcases stops byte byteMem with rfl | blank
  · decide
  · exact digitValue_of_isBlank byte blank

theorem digitValue_CR : digitValue 16 CR = none := by decide

theorem ChunkSizeLine.unbroken {line : Bytes} {size : ℕ} (isSize : ChunkSizeLine line size) :
    CR ∉ line := by
  rcases isSize with ⟨numeral, extension, rfl, -, digits, -, -, fresh, -⟩
  rw [List.mem_append, not_or]
  refine ⟨fun byteMem => ?_, fresh⟩
  have isDigit := digits CR byteMem
  simp [digitValue_CR] at isDigit

theorem line_eq_of_append_eq {line line' rest rest' : Bytes} (unbroken : CR ∉ line)
    (unbroken' : CR ∉ line') (same : line ++ crlf ++ rest = line' ++ crlf ++ rest') :
    line = line' ∧ rest = rest' := by
  have cut := dropInfix?_singleton unbroken (LF :: rest)
  have cut' := dropInfix?_singleton unbroken' (LF :: rest')
  simp only [crlf, List.append_assoc, List.cons_append, List.nil_append] at same
  rw [same, cut', Option.some.injEq, Prod.mk.injEq, List.cons.injEq] at cut
  exact ⟨cut.1.symm, cut.2.2.symm⟩

theorem trailers_eq_of_append_eq {trailers trailers' : List Bytes} {rest rest' : Bytes}
    (fields : ∀ field ∈ trailers, field ≠ [] ∧ ¬crlf <:+: field)
    (fields' : ∀ field ∈ trailers', field ≠ [] ∧ ¬crlf <:+: field)
    (same : unlines crlf trailers ++ crlf ++ rest = unlines crlf trailers' ++ crlf ++ rest') :
    trailers = trailers' ∧ rest = rest' := by
  have taken := takeSection?_unlines (by decide : CR ≠ LF)
    (fun line lineMem => (fields line lineMem).2) rest
  have taken' := takeSection?_unlines (by decide : CR ≠ LF)
    (fun line lineMem => (fields' line lineMem).2) rest'
  rw [sectionOf_of_ne_nil fun empty => (fields [] empty).1 rfl] at taken
  rw [sectionOf_of_ne_nil fun empty => (fields' [] empty).1 rfl] at taken'
  have together : takeSection? CR LF [] (unlines crlf trailers ++ crlf ++ rest) =
      takeSection? CR LF [] (unlines crlf trailers' ++ crlf ++ rest') := by rw [same]
  simp only [crlf, List.append_assoc, List.cons_append, List.nil_append] at together
  rw [taken, taken', Option.some.injEq, Prod.mk.injEq] at together
  exact together

theorem ChunkedBody.eq_of_append_eq {body body' content content' rest rest' : Bytes}
    (coded : ChunkedBody body content) (coded' : ChunkedBody body' content')
    (same : body ++ rest = body' ++ rest') : body = body' := by
  induction coded generalizing body' content' with
  | @last line trailers size fields =>
    cases coded' with
    | @last line' trailers' size' fields' =>
      simp only [List.append_assoc] at same
      rw [← List.append_assoc, ← List.append_assoc line'] at same
      rcases line_eq_of_append_eq size.unbroken size'.unbroken same with ⟨rfl, tails⟩
      simp only [← List.append_assoc] at tails
      rcases trailers_eq_of_append_eq fields fields' tails with ⟨rfl, -⟩
      rfl
    | @chunk line' data' _ _ size' nonempty' more' =>
      simp only [List.append_assoc] at same
      rw [← List.append_assoc, ← List.append_assoc line'] at same
      rcases line_eq_of_append_eq size.unbroken size'.unbroken same with ⟨rfl, -⟩
      have empty := size.size_eq.trans size'.size_eq.symm
      exact absurd (List.length_eq_zero_iff.mp empty.symm) nonempty'
  | @chunk line data _ _ size nonempty more ih =>
    cases coded' with
    | @last line' trailers' size' fields' =>
      simp only [List.append_assoc] at same
      rw [← List.append_assoc, ← List.append_assoc line'] at same
      rcases line_eq_of_append_eq size.unbroken size'.unbroken same with ⟨rfl, -⟩
      have empty := size.size_eq.trans size'.size_eq.symm
      exact absurd (List.length_eq_zero_iff.mp empty) nonempty
    | @chunk line' data' _ _ size' nonempty' more' =>
      simp only [List.append_assoc] at same
      rw [← List.append_assoc, ← List.append_assoc line'] at same
      rcases line_eq_of_append_eq size.unbroken size'.unbroken same with ⟨rfl, tails⟩
      have lengths := size.size_eq.trans size'.size_eq.symm
      rcases List.append_inj tails lengths with ⟨rfl, tails⟩
      rw [ih more' (List.append_cancel_left (List.append_cancel_left tails))]

/-! ## Messages end where they end -/

/-- Two responses to one method that begin the same text are the same response, unless they
run to the end of the connection. -/
theorem ResponseMessage.eq_of_append_eq {method wire wire' content content' rest rest' : Bytes}
    {status status' : ℕ} {framing framing' : Framing}
    (message : ResponseMessage method wire status framing content)
    (message' : ResponseMessage method wire' status' framing' content')
    (delimited : framing ≠ .untilClose) (same : wire ++ rest = wire' ++ rest') :
    wire = wire' ∧ status = status' := by
  rcases message with ⟨fields, body, head, rfl, delimits⟩
  rcases message' with ⟨fields', body', head', rfl, delimits'⟩
  have longer := responseHead?_append head rest
  have longer' := responseHead?_append head' rest'
  rw [same, longer', Option.some.injEq, Prod.mk.injEq, Prod.mk.injEq] at longer
  rcases longer with ⟨rfl, rfl, tails⟩
  have bodies : body = body' := by
    generalize responseFraming method status' fields' = framing at delimited delimits delimits'
    cases framing with
    | length n => exact (List.append_inj tails.symm (delimits.1.trans delimits'.1.symm)).1
    | chunked => exact ChunkedBody.eq_of_append_eq delimits delimits' tails.symm
    | untilClose => exact absurd rfl delimited
    | invalid => exact absurd delimits id
  subst bodies
  rw [List.append_cancel_left tails] at same
  exact ⟨List.append_cancel_right same, rfl⟩

/-! ## Answers -/

/-- An interim response: another response to the same request follows (RFC 9110 §15.2). -/
def Interim (method wire : Bytes) : Prop :=
  ∃ status framing content, ResponseMessage method wire status framing content ∧
    status / 100 = 1

/-- The final response to a request. -/
def FinalResponse (method wire : Bytes) (framing : Framing) : Prop :=
  ∃ status content, ResponseMessage method wire status framing content ∧ status / 100 ≠ 1

/-- Everything a server sends in answer to one request, and nothing else. -/
def Answer (method wire : Bytes) : Prop :=
  ∃ (interims : List Bytes) (final : Bytes) (framing : Framing),
    wire = interims.flatten ++ final ∧ (∀ interim ∈ interims, Interim method interim) ∧
    FinalResponse method final framing

/-- The text reaches at least to the end of the final response to a request.  A response
that runs to the end of the connection has no such end. -/
def ReadsFinal (method wire : Bytes) : Prop :=
  ∃ (interims : List Bytes) (final rest : Bytes) (framing : Framing),
    wire = interims.flatten ++ final ++ rest ∧ (∀ interim ∈ interims, Interim method interim) ∧
    FinalResponse method final framing ∧ framing ≠ .untilClose

theorem responseFraming_interim {method : Bytes} {status : ℕ} (fields : List Field)
    (interim : status / 100 = 1) : responseFraming method status fields = .length 0 := by
  simp [responseFraming, bodiless, interim]

theorem Interim.delimited {method wire : Bytes} (interim : Interim method wire) :
    ∃ status content, ResponseMessage method wire status (.length 0) content ∧
      status / 100 = 1 := by
  rcases interim with ⟨status, framing, content, message, isInterim⟩
  have bodiless : framing = .length 0 := by
    rcases message with ⟨fields, body, -, rfl, -⟩
    exact responseFraming_interim fields isInterim
  exact ⟨status, content, bodiless ▸ message, isInterim⟩

theorem Interim.ne_final {method wire wire' rest rest' : Bytes} {framing : Framing}
    (interim : Interim method wire) (final : FinalResponse method wire' framing)
    (same : wire ++ rest = wire' ++ rest') : False := by
  rcases interim.delimited with ⟨status, content, message, isInterim⟩
  rcases final with ⟨status', content', message', isFinal⟩
  rcases message.eq_of_append_eq message' (by simp) same with ⟨-, rfl⟩
  exact isFinal isInterim

theorem Interim.eq_of_append_eq {method wire wire' rest rest' : Bytes}
    (interim : Interim method wire) (interim' : Interim method wire')
    (same : wire ++ rest = wire' ++ rest') : wire = wire' := by
  rcases interim.delimited with ⟨status, content, message, -⟩
  rcases interim'.delimited with ⟨status', content', message', -⟩
  exact (message.eq_of_append_eq message' (by simp) same).1

theorem FinalResponse.eq_of_append_eq {method wire wire' rest rest' : Bytes}
    {framing framing' : Framing} (final : FinalResponse method wire framing)
    (final' : FinalResponse method wire' framing') (delimited : framing ≠ .untilClose)
    (same : wire ++ rest = wire' ++ rest') : wire = wire' := by
  rcases final with ⟨status, content, message, -⟩
  rcases final' with ⟨status', content', message', -⟩
  exact (message.eq_of_append_eq message' delimited same).1

/-- A final response of known length, of which at least that much has been read. -/
theorem readsFinal_of_length {method wire body : Bytes} {status bytes : ℕ} {fields : List Field}
    (head : responseHead? wire = some (status, fields, body)) (final : status / 100 ≠ 1)
    (framing : responseFraming method status fields = .length bytes)
    (whole : bytes ≤ body.length) : ReadsFinal method wire := by
  rcases responseHead?_eq_some head with ⟨statusLine, lines, taken, isStatus, rfl⟩
  rcases takeSection?_eq_some taken with ⟨used, rfl, anyOther⟩
  have ownHead : responseHead? (used ++ body.take bytes) =
      some (status, Rfc9112.fields lines, body.take bytes) := by
    have split : message? (used ++ body.take bytes) =
        some (statusLine :: lines, body.take bytes) := anyOther _
    simp [responseHead?, split, isStatus]
  refine ⟨[], used ++ body.take bytes, body.drop bytes, .length bytes, by simp, by simp, ?_, by simp⟩
  refine ⟨status, body.take bytes, ⟨Rfc9112.fields lines, body.take bytes, ownHead, ?_, ?_⟩, final⟩
  · exact framing.symm
  · exact ⟨by simpa using whole, rfl⟩

/-- Less than the announced length is not the whole final response. -/
theorem not_readsFinal_of_length {method wire body : Bytes} {status bytes : ℕ}
    {fields : List Field} (head : responseHead? wire = some (status, fields, body))
    (isFinal : status / 100 ≠ 1) (framing : responseFraming method status fields = .length bytes)
    (short : body.length < bytes) : ¬ReadsFinal method wire := by
  rintro ⟨interims, final, rest, framing', rfl, areInterims, ⟨status', content, message, -⟩, -⟩
  rcases message with ⟨fields', body', head', rfl, delimits⟩
  cases interims with
  | nil =>
    rw [List.flatten_nil, List.nil_append, responseHead?_append head' rest, Option.some.injEq,
      Prod.mk.injEq, Prod.mk.injEq] at head
    rcases head with ⟨rfl, rfl, rfl⟩
    rw [framing] at delimits
    rw [List.length_append, delimits.1] at short
    omega
  | cons interim interims =>
    rcases areInterims interim (by simp) with ⟨status'', _, _, ⟨_, _, head'', -, -⟩, isInterim⟩
    rw [List.flatten_cons, List.append_assoc, List.append_assoc, responseHead?_append head'',
      Option.some.injEq, Prod.mk.injEq] at head
    exact isFinal (head.1 ▸ isInterim)

/-- A reader that has reached the end of the final response, and has been sent nothing but
the answer, has read the answer. -/
theorem ReadsFinal.eq_answer {method read answer : Bytes} (reads : ReadsFinal method read)
    (isAnswer : Answer method answer) (sent : read <+: answer) : read = answer := by
  rcases reads with ⟨interims, final, rest, framing, rfl, areInterims, isFinal, delimited⟩
  rcases isAnswer with ⟨interims', final', framing', rfl, areInterims', isFinal'⟩
  rcases sent with ⟨more, same⟩
  -- Both texts start with the same message, so the interim responses pair off.
  induction interims generalizing interims' with
  | nil =>
    simp only [List.flatten_nil, List.nil_append, List.append_assoc] at same ⊢
    cases interims' with
    | nil =>
      simp only [List.flatten_nil, List.nil_append] at same ⊢
      rw [← List.append_nil final'] at same
      have finals := isFinal.eq_of_append_eq isFinal' delimited same
      subst finals
      have nothing := List.append_cancel_left same
      rw [(List.append_eq_nil_iff.mp nothing).1, List.append_nil]
    | cons interim' interims' =>
      simp only [List.flatten_cons, List.append_assoc] at same
      exact ((areInterims' interim' (by simp)).ne_final isFinal same.symm).elim
  | cons interim interims ih =>
    simp only [List.flatten_cons, List.append_assoc] at same
    cases interims' with
    | nil =>
      simp only [List.flatten_nil, List.nil_append] at same
      rw [← List.append_nil final'] at same
      exact ((areInterims interim (by simp)).ne_final isFinal' same).elim
    | cons interim' interims' =>
      simp only [List.flatten_cons, List.append_assoc] at same
      have heads := (areInterims interim (by simp)).eq_of_append_eq
        (areInterims' interim' (by simp)) same
      subst heads
      have tails := List.append_cancel_left same
      have rests := ih (fun later laterMem => areInterims later (by simp [laterMem])) interims'
        (fun later laterMem => areInterims' later (by simp [laterMem]))
        (by simpa only [List.append_assoc] using tails)
      simp only [List.flatten_cons, List.append_assoc] at rests ⊢
      rw [rests]

end Rfc9112
