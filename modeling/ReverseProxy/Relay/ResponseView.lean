import ReverseProxy.Codec.H1.Delimiting
import ReverseProxy.Machine.Monitor
import ReverseProxy.Relay.Closed

/-!
# Responses on an HTTP/1.1 client connection

What a client that follows RFC 9112 makes of the bytes it receives.  The head of a
response is copied from the backend while its body has been taken out of the backend's
framing, the choice to keep the connection comes from the request alone, and the writer's
error code is dropped; the trace of a run shows where all of this fits together: each
exchange is answered with exactly one response message whose content is what the body
source delivered, and a response that has to be the last one is followed by a shutdown.
-/

namespace ReverseProxy

open Text H1Codec

namespace RelaySession

/-! ## The client's side of a trace -/

/-- How far an answer is. -/
inductive ResponseStage where
  /-- No request has been parsed since the last response. -/
  | waiting
  | answering
  | answered
  /-- Nothing may follow the response on this connection. -/
  | last
  | tunnel
  deriving DecidableEq, Repr

/-- What the client gets. -/
structure ResponseView where
  stage : ResponseStage := .waiting
  /-- The method of the request that is answered. -/
  method : Bytes := []
  /-- The bytes written to the client for this exchange. -/
  written : Bytes := []
  /-- The bytes that the body source has delivered for this exchange. -/
  delivered : Bytes := []
  shut : Bool := false
  /-- The length in the backend's response head. -/
  promised : Option ℕ := none
  /-- How many bytes the backend has sent since its response head was parsed. -/
  arrived : ℕ := 0
  deriving DecidableEq

/-- The written response ends the use of the connection: it runs to its end, or switches it. -/
def ResponseView.closes (view : ResponseView) : Bool :=
  match Rfc9112.responseHead? view.written with
  | some (status, fields, _) =>
    status = 101 || Rfc9112.responseFraming view.method status fields = .untilClose
  | none => false

/-- Follows the answers. -/
def ResponseView.watch (view : ResponseView) : Action → ResponseView
  | .request parsed =>
    { view with
      stage := .answering, method := parsed.head.method, written := [], delivered := [] }
  | .write .client data => { view with written := view.written ++ data }
  | .delivered .client data => { view with delivered := view.delivered ++ data }
  | .messageDone .client ec =>
    { view with stage := if ec.isSome || view.closes then .last else .answered }
  | .shutdown .client => { view with shut := true }
  | .phase .request => { view with stage := .waiting }
  | .phase .bridge => { view with stage := .tunnel }
  | .response _ parsed => { view with promised := parsed.head.contentLength, arrived := 0 }
  | .received (.backend _) data => { view with arrived := view.arrived + data.length }
  | _ => view

/-- What the client's side demands of an action. -/
def ResponseCheck (view : ResponseView) : Action → Prop
  | .request _ => view.stage = .waiting
  | .write .client _ => view.stage = .answering ∨ view.stage = .tunnel
  | .messageDone .client none =>
    ∃ status framing,
      Rfc9112.ResponseMessage view.method view.written status framing view.delivered ∧
        (status / 100 = 1 → status = 101)
  | .phase .request => view.stage = .answered
  | _ => True

/--
Every exchange is answered with exactly one response message, whose content is what the
body source delivered; and after a response that has to be the last one, because it runs to
the end of the connection or was cut short, the connection is shut down and nothing more is
written.
-/
def FramesResponses (trace : List Action) : Prop :=
  (∀ before action after, trace = before ++ action :: after →
      ResponseCheck (before.foldl ResponseView.watch {}) action) ∧
    ((trace.foldl ResponseView.watch {}).stage = .last →
      (trace.foldl ResponseView.watch {}).shut = true)

/-! ## Runs that frame their responses -/

/-- `after_client_response` will not read another request. -/
def Closing (relay : RelaySession) : Prop :=
  relay.clientKeepAlive = false ∨ relay.draining = true ∨ relay.done = true

instance (relay : RelaySession) : Decidable relay.Closing :=
  inferInstanceAs (Decidable (_ ∨ _ ∨ _))

/-- The status and the framing that a written head announces, if it is one header section. -/
def announced (method : Bytes) (head : HttpResponseHead) : Option (ℕ × Rfc9112.Framing) :=
  match Rfc9112.responseHead? (responseBytes head) with
  | some (status, fields, []) => some (status, Rfc9112.responseFraming method status fields)
  | _ => none

/--
The announced framing is the one that a body source fills: the end of the connection, or
the number of bytes that the source has.  An HTTP/3 body has the number of bytes that its
head promised.
-/
def framesBody (promised : Option ℕ) : Rfc9112.Framing → Option BodySource → Bool
  | .untilClose, _ => true
  | .length bytes, none => bytes = 0
  | .length bytes, some (.stream remaining) => bytes = remaining
  | .length bytes, some (.buffer data readPos) => bytes = data.length - readPos
  | .length bytes, some .streamEof => promised = some bytes
  | _, _ => false

/-- The code takes a response for the answer to an upgrade. -/
def upgrades (relay : RelaySession) (parsed : ParsedResponse) : Bool :=
  relay.requestIsUpgrade && parsed.head.statusCode = 101

/--
A backend's response announces the body that is relayed with it, it is not an interim
response, and unless it has a length the connection is not kept.
-/
def framesResponse (relay : RelaySession) (stream : TransportStream) (parsed : ParsedResponse) :
    Bool :=
  match announced relay.requestMethod (relay.clientHead parsed.head) with
  | none => false
  | some (status, framing) =>
    if relay.upgrades parsed then
      (status / 100 ≠ 1 ∨ status = 101) && framesBody parsed.head.contentLength framing none
    else
      status / 100 ≠ 1 &&
        framesBody parsed.head.contentLength framing
          ((relay.clientBody stream parsed).map MessageBody.source) &&
        (framing ≠ .untilClose || relay.Closing)

/-- The callback of the message that ends with an error, when it is told. -/
def failedMessage : Op → Completion → Option WriteThen
  | .writeHead _ .h1 _ next, .written (some _) => some next
  | .writeBody _ .h1 _ next, .written (some _) => some next
  | .readBody _ .h1 body _ next, .read result examined =>
    match (body.source.onRead examined result).2 with
    | .deliver (.error _) => some next
    | _ => none
  | .finish _ next, .written (some _) => some next
  | _, _ => none

/-- A response to the client breaks off. -/
def breaksOff (op : Op) (completion : Completion) : Bool :=
  match failedMessage op completion with
  | some (.responseWritten _) | some .errorWritten => true
  | _ => false

/-- The request whose HEAD is answered by `write_error`, which sends a body with it. -/
def answersHead (relay : RelaySession) (op : Op) (completion : Completion) : Bool :=
  match op with
  | .readHead .client _ | .takeHeaders .client =>
    match requestProgress op completion with
    | some (.complete parsed) =>
      parsed.head.method = ascii "HEAD" &&
        match dispatch relay.rules parsed.head with
        | .reject _ _ => true
        | _ => false
    | _ => false
  | .readHead (.backend stream) _ | .takeHeaders (.backend stream) =>
    relay.requestMethod = ascii "HEAD" &&
      match responseProgress stream op completion with
      | some (.failed _) => true
      | _ => false
  | .connect _ _ =>
    relay.requestMethod = ascii "HEAD" &&
      match completion with
      | .connected (.error _) => true
      | _ => false
  | _ =>
    relay.requestMethod = ascii "HEAD" &&
      match failedMessage op completion with
      | some (.requestWritten retryAllowed) =>
        !(retryAllowed && relay.backendFromPool && relay.pendingBody.isNone)
      | _ => false

/-- The stream of a body of unknown length ends. -/
def endsStream : Op → Completion → Bool
  | .readBody .client _ ⟨_, .streamEof⟩ _ (.responseWritten _), .read result _ =>
    result = .error .eof ∨ result = .ok []
  | _, _ => false

/-- A parsed response announces the body that is relayed with it. -/
def framesAnswer (relay : RelaySession) (op : Op) (completion : Completion) : Bool :=
  match op with
  | .readHead (.backend stream) _ | .takeHeaders (.backend stream) =>
    match responseProgress stream op completion with
    | some (.complete parsed) => relay.framesResponse stream parsed
    | _ => true
  | _ => true

/--
Responses announce the bodies that are relayed with them, they break off only where the
connection is not kept, `write_error` does not answer HEAD, and a body that ends with its
stream has the promised length.
-/
def FramesStep (current : RelaySession × ResponseView) : Input → Prop
  | .complete op completion =>
    current.1.framesAnswer op completion = true ∧
      (breaksOff op completion = true → current.1.Closing) ∧
      current.1.answersHead op completion = false ∧
      (endsStream op completion = true →
        current.2.promised.all (· = current.2.arrived) = true)
  | _ => True

instance (current : RelaySession × ResponseView) : ∀ input, Decidable (FramesStep current input)
  | .complete _ _ => inferInstanceAs (Decidable (_ ∧ _ ∧ _ ∧ _))
  | .timerExpires | .timerHandler | .gracefulClose => .isTrue trivial

/-! ## Written heads -/

theorem errorStatusLine (status : HttpStatus) (message : Bytes) :
    LF ∉ statusLine (errorHead status message) ∧ statusLine (errorHead status message) ≠ [] ∧
      Rfc9112.status? (statusLine (errorHead status message)) = some status.code.toNat := by
  have same : statusLine (errorHead status message) = statusLine (errorHead status []) := rfl
  rw [same]
  cases status <;> decide

/-- What `write_error` writes is the head of a response of the length of its message. -/
theorem responseHead?_errorHead (status : HttpStatus) (message : Bytes) :
    ∃ fields, Rfc9112.responseHead? (responseBytes (errorHead status message)) =
        some (status.code.toNat, fields, []) ∧
      Rfc9112.transferEncoding fields = [] ∧
      Rfc9112.contentLength fields = [decimal message.length] := by
  have entries : (errorHead status message).headers.entries =
      [(ascii "content-type", ascii "text/plain"),
        (ascii "content-length", decimal message.length)] := by
    have distinct : lower (ascii "content-type") ≠ lower (ascii "content-length") := by decide
    simp [errorHead, distinct]
  have digits : LF ∉ decimal message.length := fun byteMem =>
    absurd (isDigit_of_mem_decimal byteMem) (by decide)
  rcases errorStatusLine status message with ⟨lineUnbroken, lineNonempty, isStatus⟩
  have unbroken : ∀ line ∈ responseLines (errorHead status message), LF ∉ line := by
    intro line lineMem
    simp only [responseLines, entries, List.map_cons, List.map_nil, List.mem_cons,
      List.not_mem_nil, or_false] at lineMem
    rcases lineMem with rfl | rfl | rfl
    · exact lineUnbroken
    · decide
    · simp only [HeaderMap.wireLine, List.mem_append, not_or]
      exact ⟨by decide, digits⟩
  have nonempty : [] ∉ responseLines (errorHead status message) := by
    simp only [responseLines, List.mem_cons, not_or]
    refine ⟨lineNonempty.symm, ?_⟩
    rw [List.mem_map]
    rintro ⟨entry, -, isNil⟩
    exact wireLine_ne_nil entry isNil
  have received := message?_unlines (responseLines (errorHead status message)) []
  rw [receivedLines_of_unbroken (fun line lineMem => unbroken_of_lf_notMem (unbroken line lineMem))
    nonempty, List.append_nil,
    ← responseBytes_eq_unlines] at received
  have colonless : ∀ entry ∈ (errorHead status message).headers.entries, COLON ∉ entry.1 := by
    rw [entries]
    intro entry entryMem
    simp only [List.mem_cons, List.not_mem_nil, or_false] at entryMem
    rcases entryMem with rfl | rfl
    · decide
    · exact (by decide : COLON ∉ ascii "content-length")
  refine ⟨wireFields (errorHead status message).headers, ?_, ?_, ?_⟩
  · simp only [Rfc9112.responseHead?, received, responseLines, isStatus, Option.map_some,
      wireFields, List.append_nil]
  · rw [Rfc9112.transferEncoding, valuesOf_wireFields colonless, entries]
    have other : lower (ascii "content-type") ≠ ascii "transfer-encoding" := by decide
    have another : lower (ascii "content-length") ≠ ascii "transfer-encoding" := by decide
    simp [other, another]
  · rw [Rfc9112.contentLength, valuesOf_wireFields colonless, entries]
    have other : lower (ascii "content-type") ≠ ascii "content-length" := by decide
    have same : lower (ascii "content-length") = ascii "content-length" := by decide
    simp [other, same, trim_decimal]

theorem responseFraming_errorHead {method message : Bytes} {status : HttpStatus}
    (failure : status ≠ .ok) (body : method ≠ ascii "HEAD") {fields : List Rfc9112.Field}
    (encoding : Rfc9112.transferEncoding fields = [])
    (length : Rfc9112.contentLength fields = [decimal message.length]) :
    Rfc9112.responseFraming method status.code.toNat fields = .length message.length := by
  have sized : Rfc9112.bodiless method status.code.toNat = false := by
    cases status <;> simp_all [Rfc9112.bodiless, HttpStatus.code]
  simp [Rfc9112.responseFraming, sized, encoding, length, Rfc9112.contentLength?_decimal]

variable {framing : Rfc9112.Framing}

theorem announced_eq_some {method : Bytes} {head : HttpResponseHead} {status : ℕ}
    (isAnnounced : announced method head = some (status, framing)) :
    ∃ fields, Rfc9112.responseHead? (responseBytes head) = some (status, fields, []) ∧
      framing = Rfc9112.responseFraming method status fields := by
  unfold announced at isAnnounced
  split at isAnnounced
  · rename_i status' fields taken
    simp only [Option.some.injEq, Prod.mk.injEq] at isAnnounced
    rcases isAnnounced with ⟨rfl, rfl⟩
    exact ⟨fields, taken, rfl⟩
  · simp at isAnnounced

/-! ## Bodies under way -/

/-- What is left of a body makes up the announced length. -/
def ResponseView.Owes (view : ResponseView) (framing : Rfc9112.Framing) : Option BodySource → Prop
  | none => framing = .length view.delivered.length
  | some (.stream remaining) => framing = .length (view.delivered.length + remaining)
  | some (.buffer data readPos) =>
    framing = .length (view.delivered.length + (data.length - readPos))
  | some .streamEof =>
    ∃ bytes, framing = .length bytes ∧ view.promised = some bytes ∧
      view.arrived = view.delivered.length
  | some (.chunked _) => False

/-- The view after a piece of the body has been written. -/
def ResponseView.sent (view : ResponseView) (data : Bytes) : ResponseView :=
  { view with delivered := view.delivered ++ data, written := view.written ++ data }

theorem owes_of_framesBody {view : ResponseView} {body : Option BodySource}
    (frames : framesBody view.promised framing body = true) (nothing : view.delivered = [])
    (fresh : view.arrived = 0) : framing = .untilClose ∨ view.Owes framing body := by
  unfold framesBody at frames
  split at frames
  · exact .inl rfl
  · right
    simpa [ResponseView.Owes, nothing] using frames
  · right
    simpa [ResponseView.Owes, nothing] using frames
  · right
    simpa [ResponseView.Owes, nothing] using frames
  · right
    exact ⟨_, rfl, of_decide_eq_true frames, by simp [nothing, fresh]⟩
  · simp at frames

variable {source : BodySource}

theorem ResponseView.Owes.asyncReadSome {view : ResponseView}
    (owes : view.Owes framing (some source)) {capacity : ℕ} (positive : 0 < capacity) :
    match (source.asyncReadSome capacity).2 with
    | .read _ => view.Owes framing (some (source.asyncReadSome capacity).1)
    | .deliver (.ok []) => view.Owes framing none
    | .deliver (.ok data) => (view.sent data).Owes framing (some (source.asyncReadSome capacity).1)
    | .deliver (.error _) => False := by
  cases source with
  | stream remaining =>
    by_cases none : remaining = 0
    · simpa [BodySource.asyncReadSome, none, Owes] using owes
    · simpa [BodySource.asyncReadSome, none, Owes] using owes
  | buffer data readPos =>
    simp only [Owes] at owes
    simp only [BodySource.asyncReadSome]
    have short : ((data.drop readPos).take capacity).length ≤ data.length - readPos := by
      simp
    split
    · rename_i isRead
      simp at isRead
    · rename_i ends
      simp only [BodyStep.deliver.injEq, ReadResult.ok.injEq, List.take_eq_nil_iff,
        List.drop_eq_nil_iff] at ends
      simp only [Owes, owes, Rfc9112.Framing.length.injEq]
      omega
    · rename_i piece _ delivers
      simp only [BodyStep.deliver.injEq, ReadResult.ok.injEq] at delivers
      subst delivers
      simp only [Owes, owes, sent, List.length_append, Rfc9112.Framing.length.injEq]
      omega
    · rename_i fails
      simp at fails
  | streamEof => exact owes
  | chunked source => exact owes.elim

/-- A read that the source made from the backend has completed. -/
theorem ResponseView.Owes.onRead {view : ResponseView} (owes : view.Owes framing (some source))
    (examined : UInt8) {data : Bytes} (sized : ∀ remaining, source = .stream remaining → data ≠ [])
    (unbuffered : ∀ buffered readPos, source ≠ .buffer buffered readPos)
    (asPromised : source = .streamEof → data = [] → view.promised.all (· = view.arrived) = true) :
    match (source.onRead examined (.ok data)).2 with
    | .read _ => False
    | .deliver (.ok []) => view.Owes framing none
    | .deliver (.ok piece) =>
      ({ view with arrived := view.arrived + data.length }.sent piece).Owes framing
        (some (source.onRead examined (.ok data)).1)
    | .deliver (.error _) => False := by
  cases source with
  | stream remaining =>
    have nonempty := sized remaining rfl
    simp only [Owes] at owes
    simp only [BodySource.onRead]
    split
    · rename_i isRead
      simp at isRead
    · rename_i ends
      simp only [BodyStep.deliver.injEq, ReadResult.ok.injEq, List.take_eq_nil_iff, nonempty,
        or_false] at ends
      simp [Owes, owes, ends]
    · rename_i piece _ delivers
      simp only [BodyStep.deliver.injEq, ReadResult.ok.injEq] at delivers
      subst delivers
      simp only [Owes, owes, sent, List.length_append, List.length_take,
        Rfc9112.Framing.length.injEq]
      omega
    · rename_i fails
      simp at fails
  | buffer buffered readPos => exact absurd rfl (unbuffered buffered readPos)
  | streamEof =>
    rcases owes with ⟨bytes, rfl, isPromised, inStep⟩
    cases data with
    | nil =>
      have complete := asPromised rfl rfl
      simp only [isPromised, Option.all_some, decide_eq_true_eq] at complete
      simp [BodySource.onRead, Owes, complete, inStep]
    | cons byte data =>
      refine ⟨bytes, rfl, isPromised, ?_⟩
      simp [sent, inStep]
  | chunked source => exact owes.elim

/-- The end of the stream ends a body of unknown length. -/
theorem ResponseView.Owes.onEof {view : ResponseView} (owes : view.Owes framing (some .streamEof))
    (asPromised : view.promised.all (· = view.arrived) = true) : view.Owes framing none := by
  rcases owes with ⟨bytes, rfl, isPromised, inStep⟩
  simp only [isPromised, Option.all_some, decide_eq_true_eq] at asPromised
  simp [Owes, asPromised, inStep]

/-- The messages that `after_client_response` follows. -/
def WriteThen.answers : WriteThen → Bool
  | .responseWritten _ | .errorWritten => true
  | _ => false

/--
What has been written of a response so far: its head and what the body source has
delivered, with the rest of the body still to come.
-/
structure Answers (closing : Prop) (view : ResponseView) (next : WriteThen)
    (body : Option BodySource) : Prop where
  answering : view.stage = .answering
  framed : ∃ status fields,
    Rfc9112.responseHead? view.written = some (status, fields, view.delivered) ∧
      (Rfc9112.responseFraming view.method status fields = .untilClose ∨
        view.Owes (Rfc9112.responseFraming view.method status fields) body) ∧
      (status / 100 = 1 → status = 101) ∧
      (next.answers = true → status / 100 ≠ 1 ∧
        (Rfc9112.responseFraming view.method status fields = .untilClose → closing))

section Answering

variable {closing : Prop} {view : ResponseView} {next : WriteThen} {body body' : Option BodySource}

/-- The rest of the body may change as long as it makes up the announced length. -/
theorem Answers.imp (answers : Answers closing view next body)
    (owes : ∀ {framing}, view.Owes framing body → view.Owes framing body') :
    Answers closing view next body' := by
  rcases answers with ⟨answering, status, fields, taken, framed, final, last⟩
  exact ⟨answering, status, fields, taken, framed.imp_right owes, final, last⟩

theorem Answers.sent (answers : Answers closing view next body) {data : Bytes} {arrived : ℕ}
    (owes : ∀ {framing}, view.Owes framing body →
      ({ view with arrived }.sent data).Owes framing body') :
    Answers closing ({ view with arrived }.sent data) next body' := by
  rcases answers with ⟨answering, status, fields, taken, framed, final, last⟩
  refine ⟨answering, status, fields, ?_, framed.imp_right owes, final, last⟩
  exact Rfc9112.responseHead?_append taken data

theorem Answers.asyncReadSome (answers : Answers closing view next (some source)) :
    match (source.asyncReadSome pumpSize).2 with
    | .read _ => Answers closing view next (some (source.asyncReadSome pumpSize).1)
    | .deliver (.ok []) => Answers closing view next none
    | .deliver (.ok data) =>
      Answers closing (view.sent data) next (some (source.asyncReadSome pumpSize).1)
    | .deliver (.error _) => True := by
  have positive : 0 < pumpSize := by decide
  split
  · rename_i capacity asks
    apply answers.imp
    intro framing owes
    simpa only [asks] using owes.asyncReadSome positive
  · rename_i ends
    apply answers.imp
    intro framing owes
    simpa only [ends] using owes.asyncReadSome positive
  · rename_i data _ delivers
    apply answers.sent
    intro framing owes
    have goes := owes.asyncReadSome positive
    rw [delivers] at goes
    cases data with
    | nil => simp_all
    | cons byte data => exact goes
  · exact trivial

theorem Answers.onRead (answers : Answers closing view next (some source)) (examined : UInt8)
    {data : Bytes} (sized : ∀ remaining, source = .stream remaining → data ≠ [])
    (unbuffered : ∀ buffered readPos, source ≠ .buffer buffered readPos)
    (asPromised : source = .streamEof → data = [] → view.promised.all (· = view.arrived) = true) :
    match (source.onRead examined (.ok data)).2 with
    | .read _ =>
      Answers closing { view with arrived := view.arrived + data.length } next
        (some (source.onRead examined (.ok data)).1)
    | .deliver (.ok []) =>
      Answers closing { view with arrived := view.arrived + data.length } next none
    | .deliver (.ok piece) =>
      Answers closing ({ view with arrived := view.arrived + data.length }.sent piece) next
        (some (source.onRead examined (.ok data)).1)
    | .deliver (.error _) => True := by
  have goes : ∀ {framing}, view.Owes framing (some source) → _ := fun owes =>
    owes.onRead examined sized unbuffered asPromised
  rcases answers with ⟨answering, status, fields, taken, framed, final, last⟩
  split
  · rename_i capacity asks
    refine ⟨answering, status, fields, taken, .inl ?_, final, last⟩
    rcases framed with untilClose | owes
    · exact untilClose
    · simpa only [asks] using goes owes
  · rename_i ends
    refine ⟨answering, status, fields, taken, ?_, final, last⟩
    apply framed.imp_right
    intro owes
    have owed := goes owes
    rw [ends] at owed
    exact owed
  · rename_i piece _ delivers
    refine ⟨answering, status, fields, Rfc9112.responseHead?_append taken piece, ?_, final, last⟩
    apply framed.imp_right
    intro owes
    have owed := goes owes
    rw [delivers] at owed
    cases piece with
    | nil => simp_all
    | cons byte piece => exact owed
  · exact trivial

/-- A body read has failed; only the end of the stream can end a body. -/
theorem Answers.onError (answers : Answers closing view next (some source)) (examined : UInt8)
    (ec : ErrorCode)
    (asPromised : source = .streamEof → ec = .eof → view.promised.all (· = view.arrived) = true) :
    match (source.onRead examined (.error ec)).2 with
    | .deliver (.ok []) => Answers closing view next none
    | .deliver (.error _) => True
    | _ => False := by
  cases source with
  | stream remaining => exact trivial
  | buffer buffered readPos => exact trivial
  | streamEof =>
    by_cases isEof : ec = .eof
    · subst isEof
      exact answers.imp fun owes => owes.onEof (asPromised rfl rfl)
    · cases ec <;> simp_all [BodySource.onRead]
  | chunked source =>
    simp only [BodySource.onRead, ChunkedBodySource.onRead]
    cases source.wait <;> exact trivial

end Answering

end RelaySession

end ReverseProxy
