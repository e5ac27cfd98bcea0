import ReverseProxy.Codec.H1.Message
import ReverseProxy.Codec.Pump
import ReverseProxy.Machine.Run

/-!
# The writers of the HTTP/1.1 codec

`H1Codec::async_write_request` and `async_write_response` (`codec/h1_codec.cpp`) write a
serialised head and leave the body to `pump_body_to_stream` (`codec/http_message.cpp`), a
closure that starts itself again from the completion of its own write.  One operation is
outstanding at a time, and a step is what the completion of that operation does.

The destination answers each write of a whole buffer with success or an error.  The body is
given by what a read of it into the pump's buffer returns and what is left of it then: `Reads`
is a body by its reads alone, `SourceBody` is a body source with the stream behind it.
-/

namespace ReverseProxy

open Machine Text

namespace H1Codec

/-- Where a call of a writer is, with the body it has yet to read. -/
inductive WritePhase (β : Type) where
  | called (head : Bytes) (body : Option β)
  /-- The head is being written. -/
  | head (body : Option β)
  | reading (body : β)
  | writing (body : β)
  /-- The callback has been invoked. -/
  | done (body : Option β)

/-- A call of a writer. -/
structure WriteCall (β : Type) where
  /-- How the destination completes the write of this number. -/
  dest : ℕ → Option ErrorCode
  /-- Completed writes. -/
  writes : ℕ := 0
  phase : WritePhase β

/-- What a call does. -/
inductive WriteAction where
  /-- `async_write_some` with this buffer. -/
  | write (buffer : Bytes)
  | bodyRead (result : ReadResult)
  | callback (ec : Option ErrorCode)
  deriving DecidableEq

variable {β : Type}

/-- `async_write_request`. -/
def asyncWriteRequest (dest : ℕ → Option ErrorCode) (head : HttpRequestHead) (body : Option β) :
    WriteCall β :=
  { dest, phase := .called (requestBytes head) body }

/-- `async_write_response`. -/
def asyncWriteResponse (dest : ℕ → Option ErrorCode) (head : HttpResponseHead)
    (body : Option β) : WriteCall β :=
  { dest, phase := .called (responseBytes head) body }

/-- The closure that the write of the head runs: `ec || !body`. -/
def onHeadWritten (call : WriteCall β) (body : Option β) :
    Option ErrorCode → WriteCall β × List WriteAction
  | some ec => ({ call with writes := call.writes + 1, phase := .done body }, [.callback (some ec)])
  | none =>
    ({ call with
        writes := call.writes + 1
        phase := body.elim (.done none) .reading },
      body.elim [.callback none] fun _ => [])

/-- The pump, when a read of the body completes: `ec || n == 0`. -/
def onBodyRead (call : WriteCall β) (body : β) : ReadResult → WriteCall β × List WriteAction
  | .error ec => ({ call with phase := .done (some body) }, [.callback (some ec)])
  | .ok [] => ({ call with phase := .done (some body) }, [.callback none])
  | .ok (byte :: data) => ({ call with phase := .writing body }, [.write (byte :: data)])

/-- The pump, when a write completes. -/
def onPieceWritten (call : WriteCall β) (body : β) :
    Option ErrorCode → WriteCall β × List WriteAction
  | some ec =>
    ({ call with writes := call.writes + 1, phase := .done (some body) },
      [.callback (some ec)])
  | none => ({ call with writes := call.writes + 1, phase := .reading body }, [])

/-- The outstanding operation completes. -/
def writeStep (read : β → ReadResult × β) : Step (WriteCall β) Unit WriteAction :=
  fun call _ =>
    match call.phase with
    | .called head body => some ({ call with phase := .head body }, [.write head])
    | .head body => some (onHeadWritten call body (call.dest call.writes))
    | .reading body =>
      let result := onBodyRead call (read body).2 (read body).1
      some (result.1, .bodyRead (read body).1 :: result.2)
    | .writing body => some (onPieceWritten call body (call.dest call.writes))
    | .done _ => none

/-- The buffers passed to the destination. -/
def passed (trace : List WriteAction) : List Bytes :=
  trace.filterMap fun
    | .write buffer => some buffer
    | _ => none

/-- What the callback has been invoked with. -/
def callbacks (trace : List WriteAction) : List (Option ErrorCode) :=
  trace.filterMap fun
    | .callback ec => some ec
    | _ => none

/-- The data that the body has returned. -/
def bodyData (trace : List WriteAction) : Bytes :=
  trace.flatMap fun
    | .bodyRead result => result.data
    | _ => []

section Trace

variable (trace later : List WriteAction) (buffer : Bytes) (result : ReadResult)
  (ec : Option ErrorCode)

@[simp]
theorem passed_nil : passed [] = [] := rfl

@[simp]
theorem passed_write : passed (.write buffer :: trace) = buffer :: passed trace := rfl

@[simp]
theorem passed_bodyRead : passed (.bodyRead result :: trace) = passed trace := rfl

@[simp]
theorem passed_callback : passed (.callback ec :: trace) = passed trace := rfl

@[simp]
theorem passed_append : passed (trace ++ later) = passed trace ++ passed later :=
  List.filterMap_append

@[simp]
theorem callbacks_nil : callbacks [] = [] := rfl

@[simp]
theorem callbacks_write : callbacks (.write buffer :: trace) = callbacks trace := rfl

@[simp]
theorem callbacks_bodyRead : callbacks (.bodyRead result :: trace) = callbacks trace := rfl

@[simp]
theorem callbacks_callback : callbacks (.callback ec :: trace) = ec :: callbacks trace := rfl

@[simp]
theorem callbacks_append : callbacks (trace ++ later) = callbacks trace ++ callbacks later :=
  List.filterMap_append

@[simp]
theorem bodyData_nil : bodyData [] = [] := rfl

@[simp]
theorem bodyData_write : bodyData (.write buffer :: trace) = bodyData trace := rfl

@[simp]
theorem bodyData_bodyRead : bodyData (.bodyRead result :: trace) = result.data ++ bodyData trace :=
  rfl

@[simp]
theorem bodyData_callback : bodyData (.callback ec :: trace) = bodyData trace := rfl

@[simp]
theorem bodyData_append : bodyData (trace ++ later) = bodyData trace ++ bodyData later :=
  List.flatMap_append

end Trace

/-- The callback was invoked. -/
def WritePhase.isDone : WritePhase β → Bool
  | .done _ => true
  | _ => false

/-- The body that has yet to be read. -/
def WritePhase.body : WritePhase β → Option β
  | .called _ body => body
  | .head body => body
  | .reading body => some body
  | .writing body => some body
  | .done body => body

/-! ## Bodies -/

/-- A successful read. -/
structure Piece where
  bytes : Bytes
  nonempty : bytes ≠ []
  fits : bytes.length ≤ pumpSize

/-- A body by its reads: pieces, and then an error or a read of zero bytes. -/
structure Reads where
  pieces : List Piece
  ending : Option ErrorCode

/-- The next read. -/
def Reads.read (reads : Reads) : ReadResult × Reads :=
  match reads.pieces with
  | piece :: later => (.ok piece.bytes, { reads with pieces := later })
  | [] => (reads.ending.elim (.ok []) .error, reads)

theorem Reads.read_of_lt (reads : Reads) {k : ℕ} (isPiece : k < reads.pieces.length) :
    Reads.read { reads with pieces := reads.pieces.drop k } =
      (.ok (reads.pieces[k]).bytes, { reads with pieces := reads.pieces.drop (k + 1) }) := by
  simp only [Reads.read, List.drop_eq_getElem_cons isPiece]

theorem Reads.read_of_le (reads : Reads) {k : ℕ} (noPiece : reads.pieces.length ≤ k) :
    Reads.read { reads with pieces := reads.pieces.drop k } =
      (reads.ending.elim (.ok []) .error, { reads with pieces := [] }) := by
  simp only [Reads.read, List.drop_of_length_le noPiece]

/-- A body source and the stream that it reads. -/
structure SourceBody where
  source : BodySource
  stream : InStream

/-- A read of the pump. -/
def SourceBody.read (examined : ℕ → UInt8) (body : SourceBody) : ReadResult × SourceBody :=
  let result := body.source.readSome examined pumpSize body.stream
  (result.2.1, { source := result.1, stream := result.2.2 })

/-! ## What a completion does -/

/-- What a step does. -/
inductive Completed (read : β → ReadResult × β) :
    WriteCall β → WriteCall β → List WriteAction → Prop where
  | called (dest : ℕ → Option ErrorCode) (writes : ℕ) (head : Bytes) (body : Option β) :
      Completed read ⟨dest, writes, .called head body⟩ ⟨dest, writes, .head body⟩ [.write head]
  | headFailed (dest : ℕ → Option ErrorCode) (writes : ℕ) (body : Option β) (ec : ErrorCode)
      (failed : dest writes = some ec) :
      Completed read ⟨dest, writes, .head body⟩ ⟨dest, writes + 1, .done body⟩
        [.callback (some ec)]
  | headAlone (dest : ℕ → Option ErrorCode) (writes : ℕ) (sent : dest writes = none) :
      Completed read ⟨dest, writes, .head none⟩ ⟨dest, writes + 1, .done none⟩ [.callback none]
  | headSent (dest : ℕ → Option ErrorCode) (writes : ℕ) (body : β) (sent : dest writes = none) :
      Completed read ⟨dest, writes, .head (some body)⟩ ⟨dest, writes + 1, .reading body⟩ []
  | ended (dest : ℕ → Option ErrorCode) (writes : ℕ) (body rest : β)
      (isRead : read body = (.ok [], rest)) :
      Completed read ⟨dest, writes, .reading body⟩ ⟨dest, writes, .done (some rest)⟩
        [.bodyRead (.ok []), .callback none]
  | readFailed (dest : ℕ → Option ErrorCode) (writes : ℕ) (body rest : β) (ec : ErrorCode)
      (isRead : read body = (.error ec, rest)) :
      Completed read ⟨dest, writes, .reading body⟩ ⟨dest, writes, .done (some rest)⟩
        [.bodyRead (.error ec), .callback (some ec)]
  | piece (dest : ℕ → Option ErrorCode) (writes : ℕ) (body rest : β) (data : Bytes)
      (isRead : read body = (.ok data, rest)) (nonempty : data ≠ []) :
      Completed read ⟨dest, writes, .reading body⟩ ⟨dest, writes, .writing rest⟩
        [.bodyRead (.ok data), .write data]
  | pieceFailed (dest : ℕ → Option ErrorCode) (writes : ℕ) (body : β) (ec : ErrorCode)
      (failed : dest writes = some ec) :
      Completed read ⟨dest, writes, .writing body⟩ ⟨dest, writes + 1, .done (some body)⟩
        [.callback (some ec)]
  | pieceSent (dest : ℕ → Option ErrorCode) (writes : ℕ) (body : β) (sent : dest writes = none) :
      Completed read ⟨dest, writes, .writing body⟩ ⟨dest, writes + 1, .reading body⟩ []

theorem completed_of_step {read : β → ReadResult × β} {call next : WriteCall β}
    {actions : List WriteAction} (stepped : writeStep read call () = some (next, actions)) :
    Completed read call next actions := by
  rcases call with ⟨dest, writes, phase⟩
  cases phase with
  | called head body =>
    cases stepped
    exact .called dest writes head body
  | head body =>
    rcases isDest : dest writes with _ | ec
    · simp only [writeStep, isDest, onHeadWritten] at stepped
      cases body with
      | none =>
        cases stepped
        exact .headAlone dest writes isDest
      | some body =>
        cases stepped
        exact .headSent dest writes body isDest
    · simp only [writeStep, isDest, onHeadWritten] at stepped
      cases stepped
      exact .headFailed dest writes body ec isDest
  | reading body =>
    rcases isRead : read body with ⟨(_ | ⟨byte, data⟩) | ec, rest⟩
    · simp only [writeStep, isRead, onBodyRead] at stepped
      cases stepped
      exact .ended dest writes body rest isRead
    · simp only [writeStep, isRead, onBodyRead] at stepped
      cases stepped
      exact .piece dest writes body rest _ isRead (List.cons_ne_nil byte data)
    · simp only [writeStep, isRead, onBodyRead] at stepped
      cases stepped
      exact .readFailed dest writes body rest ec isRead
  | writing body =>
    rcases isDest : dest writes with _ | ec
    · simp only [writeStep, isDest, onPieceWritten] at stepped
      cases stepped
      exact .pieceSent dest writes body isDest
    · simp only [writeStep, isDest, onPieceWritten] at stepped
      cases stepped
      exact .pieceFailed dest writes body ec isDest
  | done body => cases stepped

/-! ## Every call comes to its end -/

section Finishes

variable {read : β → ReadResult × β} {size : β → ℕ}

/-- The steps that a call has before it, if every piece makes the body smaller. -/
def WritePhase.weight (size : β → ℕ) : WritePhase β → ℕ
  | .called _ body => 2 * body.elim 0 size + 3
  | .head body => 2 * body.elim 0 size + 2
  | .reading body => 2 * size body + 1
  | .writing body => 2 * size body + 2
  | .done _ => 0

theorem Completed.weight_lt (shrinks : ∀ body data rest, read body = (.ok data, rest) →
      data ≠ [] → size rest < size body) {call next : WriteCall β} {actions : List WriteAction}
    (completed : Completed read call next actions) :
    next.phase.weight size < call.phase.weight size := by
  cases completed with
  | called dest writes head body => exact Nat.lt_succ_self _
  | headFailed dest writes body ec failed => exact Nat.zero_lt_succ _
  | headAlone dest writes sent => exact Nat.zero_lt_succ _
  | headSent dest writes body sent => exact Nat.lt_succ_self _
  | ended dest writes body rest isRead => exact Nat.zero_lt_succ _
  | readFailed dest writes body rest ec isRead => exact Nat.zero_lt_succ _
  | piece dest writes body rest data isRead nonempty =>
    have smaller := shrinks body data rest isRead nonempty
    show 2 * size rest + 2 < 2 * size body + 1
    omega
  | pieceFailed dest writes body ec failed => exact Nat.zero_lt_succ _
  | pieceSent dest writes body sent => exact Nat.lt_succ_self _

/-- A call that is not done has an operation outstanding. -/
theorem exists_completed (read : β → ReadResult × β) (call : WriteCall β)
    (unfinished : call.phase.isDone = false) :
    ∃ next actions, writeStep read call () = some (next, actions) := by
  rcases call with ⟨dest, writes, phase⟩
  cases phase with
  | done body => cases unfinished
  | _ => exact ⟨_, _, rfl⟩

theorem exists_done (shrinks : ∀ body data rest, read body = (.ok data, rest) → data ≠ [] →
      size rest < size body) (start : WriteCall β) :
    ∃ trace call, Runs (writeStep read) anyInput start trace call ∧
      call.phase.isDone = true := by
  -- by the number of steps that are left, for a run that has come this far
  suffices ∀ left trace call, call.phase.weight size ≤ left →
      Runs (writeStep read) anyInput start trace call →
        ∃ trace call, Runs (writeStep read) anyInput start trace call ∧
          call.phase.isDone = true from this _ [] start le_rfl .refl
  intro left
  induction left with
  | zero =>
    intro trace call light runs
    by_cases finished : call.phase.isDone = true
    · exact ⟨trace, call, runs, finished⟩
    · rcases exists_completed read call (by simpa using finished) with ⟨next, actions, stepped⟩
      have lighter := (completed_of_step stepped).weight_lt shrinks
      omega
  | succ left ih =>
    intro trace call light runs
    by_cases finished : call.phase.isDone = true
    · exact ⟨trace, call, runs, finished⟩
    · rcases exists_completed read call (by simpa using finished) with ⟨next, actions, stepped⟩
      have lighter := (completed_of_step stepped).weight_lt shrinks
      exact ih _ next (by omega) (runs.snoc trivial stepped)

end Finishes

theorem callbacks_of_runs {read : β → ReadResult × β} {dest : ℕ → Option ErrorCode} {head : Bytes}
    {body : Option β} {trace : List WriteAction} {call : WriteCall β}
    (runs : Runs (writeStep read) anyInput ⟨dest, 0, .called head body⟩
      trace call) : (callbacks trace).length = call.phase.isDone.toNat := by
  apply Runs.invariant ?_ ?_ runs
  · rfl
  · intro trace call input next actions sofar _ stepped
    rw [callbacks_append, List.length_append, sofar]
    cases completed_of_step stepped with
    | _ => rfl

/-- Once a call has started, it has passed the head and the data that it has read. -/
theorem passed_of_runs {read : β → ReadResult × β} {dest : ℕ → Option ErrorCode} {head : Bytes}
    {body : Option β} {trace : List WriteAction} {call : WriteCall β}
    (runs : Runs (writeStep read) anyInput ⟨dest, 0, .called head body⟩
      trace call) :
    trace = [] ∧ call = ⟨dest, 0, .called head body⟩ ∨
      (∀ head body, call.phase ≠ .called head body) ∧
        (passed trace).flatten = head ++ bodyData trace := by
  apply Runs.invariant ?_ ?_ runs
  · exact .inl ⟨rfl, rfl⟩
  · intro trace call input next actions sofar _ stepped
    right
    rcases sofar with ⟨rfl, rfl⟩ | ⟨started, passes⟩
    · cases stepped
      exact ⟨by simp, by simp⟩
    · cases completed_of_step stepped with
      | called dest writes head body => exact absurd rfl (started head body)
      | _ => exact ⟨by simp, by simp [passes, ReadResult.data]⟩

/-! ## The head and exactly the body -/

/-- The pieces of a body, if there is one. -/
def parts (body : Option Reads) : List Bytes :=
  body.elim [] fun reads => reads.pieces.map Piece.bytes

/--
What a call comes to: all writes up to the first that fails, whose error it reports, or all
writes, and then it reports how the body ended.
-/
inductive Outcome (dest : ℕ → Option ErrorCode) (head : Bytes) (body : Option Reads) :
    List Bytes → Option ErrorCode → Prop where
  | failed (k : ℕ) (ec : ErrorCode) (isWrite : k ≤ (parts body).length)
      (before : ∀ i < k, dest i = none) (fails : dest k = some ec) :
      Outcome dest head body ((head :: parts body).take (k + 1)) (some ec)
  | completed (sent : ∀ i ≤ (parts body).length, dest i = none) :
      Outcome dest head body (head :: parts body) (body.bind Reads.ending)

/-- How far a call has come with a body that is given by its reads. -/
inductive Along (dest : ℕ → Option ErrorCode) (head : Bytes) :
    Option Reads → List WriteAction → WriteCall Reads → Prop where
  | called (body : Option Reads) : Along dest head body [] ⟨dest, 0, .called head body⟩
  | head (body : Option Reads) : Along dest head body [.write head] ⟨dest, 0, .head body⟩
  | reading (reads : Reads) (k : ℕ) (trace : List WriteAction) (sent : ∀ i ≤ k, dest i = none)
      (passes : passed trace = head :: (parts (some reads)).take k) (quiet : callbacks trace = []) :
      Along dest head (some reads) trace
        ⟨dest, k + 1, .reading { reads with pieces := reads.pieces.drop k }⟩
  | writing (reads : Reads) (k : ℕ) (trace : List WriteAction) (sent : ∀ i ≤ k, dest i = none)
      (isPiece : k < reads.pieces.length)
      (passes : passed trace = head :: (parts (some reads)).take (k + 1))
      (quiet : callbacks trace = []) :
      Along dest head (some reads) trace
        ⟨dest, k + 1, .writing { reads with pieces := reads.pieces.drop (k + 1) }⟩
  | done (body left : Option Reads) (writes : ℕ) (trace : List WriteAction)
      (ec : Option ErrorCode) (calls : callbacks trace = [ec])
      (outcome : Outcome dest head body (passed trace) ec) :
      Along dest head body trace ⟨dest, writes, .done left⟩

section Reads

variable {dest : ℕ → Option ErrorCode} {head : Bytes} {body : Option Reads}
  {trace : List WriteAction} {call next : WriteCall Reads} {actions : List WriteAction}

/-- The next piece is read, and its write begins. -/
theorem along_of_piece {reads : Reads} {k : ℕ} (sent : ∀ i ≤ k, dest i = none)
    (passes : passed trace = head :: (parts (some reads)).take k) (quiet : callbacks trace = [])
    (isPiece : k < reads.pieces.length)
    (completed : Completed Reads.read
      ⟨dest, k + 1, .reading { reads with pieces := reads.pieces.drop k }⟩ next actions) :
    Along dest head (some reads) (trace ++ actions) next := by
  have isNext := reads.read_of_lt isPiece
  have isPart : (parts (some reads)).take (k + 1) =
      (parts (some reads)).take k ++ [(reads.pieces[k]).bytes] := by
    have inside : k < (parts (some reads)).length := by simpa [parts] using isPiece
    rw [List.take_succ_eq_append_getElem inside]
    simp [parts]
  cases completed with
  | ended _ _ _ rest isRead =>
    have empty := (Prod.ext_iff.mp (isRead.symm.trans isNext)).1
    exact absurd (ReadResult.ok.inj empty).symm reads.pieces[k].nonempty
  | readFailed _ _ _ rest ec isRead => cases isRead.symm.trans isNext
  | piece _ _ _ rest data isRead nonempty =>
    cases isRead.symm.trans isNext
    exact .writing reads k _ sent isPiece (by simp [passes, isPart]) (by simp [quiet])

/-- All pieces have been written, and the body says how it ends. -/
theorem along_of_end {reads : Reads} {k : ℕ} (sent : ∀ i ≤ k, dest i = none)
    (passes : passed trace = head :: (parts (some reads)).take k) (quiet : callbacks trace = [])
    (noPiece : reads.pieces.length ≤ k)
    (completed : Completed Reads.read
      ⟨dest, k + 1, .reading { reads with pieces := reads.pieces.drop k }⟩ next actions) :
    Along dest head (some reads) (trace ++ actions) next := by
  have isResult := congrArg Prod.fst (reads.read_of_le noPiece)
  have all : (parts (some reads)).take k = parts (some reads) := by
    apply List.take_of_length_le
    simpa [parts] using noPiece
  have completes : Outcome dest head (some reads) (passed trace) reads.ending := by
    rw [passes, all]
    refine .completed ?_
    intro i atMost
    apply sent i
    simp [parts] at atMost
    omega
  cases completed with
  | ended _ _ _ rest isRead =>
    rw [isRead] at isResult
    rcases isEnding : reads.ending with _ | ec
    · rw [isEnding] at completes
      exact .done _ _ _ _ none (by simp [quiet]) (by simpa using completes)
    · rw [isEnding] at isResult
      cases isResult
  | readFailed _ _ _ rest ec isRead =>
    rw [isRead] at isResult
    rcases isEnding : reads.ending with _ | ec'
    · rw [isEnding] at isResult
      cases isResult
    · rw [isEnding] at isResult completes
      cases isResult
      exact .done _ _ _ _ (some ec) (by simp [quiet]) (by simpa using completes)
  | piece _ _ _ rest data isRead nonempty =>
    rw [isRead] at isResult
    rcases isEnding : reads.ending with _ | ec
    · rw [isEnding] at isResult
      cases isResult
      exact absurd rfl nonempty
    · rw [isEnding] at isResult
      cases isResult

theorem Along.step (along : Along dest head body trace call)
    (stepped : writeStep Reads.read call () = some (next, actions)) :
    Along dest head body (trace ++ actions) next := by
  have completed := completed_of_step stepped
  cases along with
  | called =>
    cases completed
    exact .head body
  | head =>
    cases completed with
    | headFailed _ _ _ ec failed =>
      refine .done body body 1 _ (some ec) rfl ?_
      exact .failed 0 ec (Nat.zero_le _) (fun i below => absurd below (Nat.not_lt_zero i)) failed
    | headAlone _ _ sent =>
      refine .done none none 1 _ none rfl (.completed ?_)
      intro i atMost
      rw [Nat.le_zero.mp atMost]
      exact sent
    | headSent _ _ reads sent =>
      refine .reading reads 0 _ ?_ rfl rfl
      intro i atMost
      rw [Nat.le_zero.mp atMost]
      exact sent
  | reading reads k trace sent passes quiet =>
    by_cases isPiece : k < reads.pieces.length
    · exact along_of_piece sent passes quiet isPiece completed
    · exact along_of_end sent passes quiet (Nat.not_lt.mp isPiece) completed
  | writing reads k trace sent isPiece passes quiet =>
    cases completed with
    | pieceFailed _ _ _ ec failed =>
      refine .done _ _ _ _ (some ec) (by simp [quiet]) ?_
      have isPassed : passed (trace ++ [.callback (some ec)]) =
          (head :: parts (some reads)).take (k + 1 + 1) := by
        simp [passes]
      rw [isPassed]
      refine .failed (k + 1) ec ?_ ?_ failed
      · simpa [parts] using isPiece
      · intro i below
        exact sent i (Nat.lt_succ_iff.mp below)
    | pieceSent _ _ _ isSent =>
      refine .reading reads (k + 1) _ ?_ (by simp [passes]) (by simp [quiet])
      intro i atMost
      rcases Nat.le_succ_iff.mp atMost with earlier | rfl
      · exact sent i earlier
      · exact isSent
  | done body left writes trace ec calls outcome => cases stepped

theorem along_of_runs (runs : Runs (writeStep Reads.read) anyInput ⟨dest, 0, .called head body⟩
      trace call) : Along dest head body trace call := by
  apply Runs.invariant ?_ ?_ runs
  · exact .called body
  · intro trace call input next actions along _ stepped
    exact along.step stepped

end Reads

/-! ## What is taken from a stream -/

/-- What a read of a `StreamBodySource` returns, and whether it is the end. -/
theorem read_stream (examined : ℕ → UInt8) (remaining : ℕ) (stream : InStream) :
    (∃ data left, SourceBody.read examined ⟨.stream remaining, stream⟩ =
        (.ok data, ⟨.stream (remaining - data.length), left⟩) ∧
      data.length ≤ remaining ∧ data ++ left.bytes = stream.bytes ∧
      (data = [] → remaining = 0 ∨ stream.bytes = [])) ∨
    ∃ ec, SourceBody.read examined ⟨.stream remaining, stream⟩ =
      (.error ec, ⟨.stream remaining, stream⟩) := by
  by_cases finished : remaining = 0
  · subst finished
    exact .inl ⟨[], stream, rfl, le_rfl, rfl, fun _ => .inl rfl⟩
  rcases stream with ⟨segments, ending⟩
  cases segments with
  | nil =>
    have read := readSome_stream_of_nil examined finished ending
    cases ending with
    | fin =>
      refine .inl ⟨[], ⟨[], .fin⟩, ?_, Nat.zero_le _, rfl, fun _ => .inr rfl⟩
      simp only [SourceBody.read, read]
      rfl
    | error ec =>
      refine .inr ⟨ec, ?_⟩
      simp only [SourceBody.read, read]
      rfl
  | cons segment later =>
    rcases exists_readSome_stream examined finished segment later ending with
      ⟨data, rest, read, nonempty, fits, _, same⟩
    refine .inl ⟨data, rest, ?_, fits, same, fun empty => absurd empty nonempty⟩
    simp only [SourceBody.read, read]

/-- Of a stream, the first `n` bytes have been taken, for a body of so many bytes. -/
structure Draws (remaining : ℕ) (stream : InStream) (trace : List WriteAction)
    (call : WriteCall SourceBody) (n : ℕ) : Prop where
  isBody : ∃ left, call.phase.body = some ⟨.stream (remaining - n), left⟩ ∧
    left.bytes = stream.bytes.drop n
  within : n ≤ remaining
  available : n ≤ stream.bytes.length
  data : bodyData trace = stream.bytes.take n
  quiet : call.phase.isDone = false → callbacks trace = []
  ended : none ∈ callbacks trace → n = min remaining stream.bytes.length

section Draws

variable {examined : ℕ → UInt8} {remaining n : ℕ} {stream left : InStream}
  {trace actions : List WriteAction} {call next : WriteCall SourceBody}

/-- A step that reads nothing. -/
theorem Draws.keep (draws : Draws remaining stream trace call n)
    (unfinished : call.phase.isDone = false) (same : next.phase.body = call.phase.body)
    (noData : bodyData actions = []) (failure : none ∉ callbacks actions)
    (quiet : next.phase.isDone = false → callbacks actions = []) :
    Draws remaining stream (trace ++ actions) next n := by
  have silent := draws.quiet unfinished
  refine ⟨?_, draws.within, draws.available, ?_, ?_, ?_⟩
  · rw [same]
    exact draws.isBody
  · rw [bodyData_append, noData, List.append_nil]
    exact draws.data
  · intro going
    rw [callbacks_append, silent, quiet going, List.append_nil]
  · intro success
    rw [callbacks_append, silent, List.nil_append] at success
    exact absurd success failure

/-- A step that reads a piece, maybe the empty one at the end. -/
theorem Draws.take (draws : Draws remaining stream trace call n)
    (unfinished : call.phase.isDone = false) (isLeft : left.bytes = stream.bytes.drop n)
    {data : Bytes} {rest : InStream} (fits : data.length ≤ remaining - n)
    (same : data ++ rest.bytes = left.bytes)
    (isBody : next.phase.body = some ⟨.stream (remaining - n - data.length), rest⟩)
    (isData : bodyData actions = data) (quiet : next.phase.isDone = false → callbacks actions = [])
    (ended : none ∈ callbacks actions → data = [] ∧ (remaining - n = 0 ∨ left.bytes = [])) :
    Draws remaining stream (trace ++ actions) next (n + data.length) := by
  have silent := draws.quiet unfinished
  have within := draws.within
  have size : data.length + rest.bytes.length = stream.bytes.length - n := by
    rw [← List.length_append, same, isLeft, List.length_drop]
  have available := draws.available
  rw [isLeft] at same
  refine ⟨⟨rest, ?_, ?_⟩, by omega, by omega, ?_, ?_, ?_⟩
  · rw [isBody, Nat.sub_sub]
  · rw [← List.drop_drop, ← same, List.drop_left]
  · rw [bodyData_append, isData, draws.data, List.take_add, ← same, List.take_left]
  · intro going
    rw [callbacks_append, silent, quiet going, List.append_nil]
  · intro success
    rw [callbacks_append, silent, List.nil_append] at success
    rcases ended success with ⟨rfl, complete | empty⟩
    · simp only [List.length_nil]
      omega
    · rw [isLeft, List.drop_eq_nil_iff] at empty
      simp only [List.length_nil]
      omega

theorem Draws.step (draws : Draws remaining stream trace call n)
    (completed : Completed (SourceBody.read examined) call next actions) :
    ∃ n, Draws remaining stream (trace ++ actions) next n := by
  rcases draws.isBody with ⟨left, isBody, isLeft⟩
  cases completed with
  | called dest writes head body => exact ⟨n, draws.keep rfl rfl rfl List.not_mem_nil fun _ => rfl⟩
  | headFailed dest writes body ec failed =>
    exact ⟨n, draws.keep rfl rfl rfl (by simp) (by simp [WritePhase.isDone])⟩
  | headAlone dest writes sent => cases isBody
  | headSent dest writes body sent =>
    exact ⟨n, draws.keep rfl rfl rfl List.not_mem_nil fun _ => rfl⟩
  | ended dest writes body rest isRead =>
    cases isBody
    rcases read_stream examined (remaining - n) left with
      ⟨data, left', read, fits, same, atEnd⟩ | ⟨ec, read⟩
    · cases isRead.symm.trans read
      refine ⟨_, draws.take rfl isLeft fits same rfl rfl (by simp [WritePhase.isDone]) ?_⟩
      intro _
      exact ⟨rfl, atEnd rfl⟩
    · cases isRead.symm.trans read
  | readFailed dest writes body rest ec isRead =>
    cases isBody
    rcases read_stream examined (remaining - n) left with
      ⟨data, left', read, fits, same, atEnd⟩ | ⟨ec, read⟩
    · cases isRead.symm.trans read
    · cases isRead.symm.trans read
      exact ⟨n, draws.keep rfl rfl rfl (by simp) (by simp [WritePhase.isDone])⟩
  | piece dest writes body rest data isRead nonempty =>
    cases isBody
    rcases read_stream examined (remaining - n) left with
      ⟨data, left', read, fits, same, atEnd⟩ | ⟨ec, read⟩
    · cases isRead.symm.trans read
      refine ⟨_, draws.take rfl isLeft fits same rfl (by simp [ReadResult.data]) (fun _ => rfl) ?_⟩
      intro success
      cases success
    · cases isRead.symm.trans read
  | pieceFailed dest writes body ec failed =>
    exact ⟨n, draws.keep rfl rfl rfl (by simp) (by simp [WritePhase.isDone])⟩
  | pieceSent dest writes body sent =>
    exact ⟨n, draws.keep rfl rfl rfl List.not_mem_nil fun _ => rfl⟩

theorem draws_of_runs {dest : ℕ → Option ErrorCode} {head : Bytes}
    (runs : Runs (writeStep (SourceBody.read examined)) anyInput
      ⟨dest, 0, .called head (some ⟨.stream remaining, stream⟩)⟩ trace call) :
    ∃ n, Draws remaining stream trace call n := by
  apply Runs.invariant ?_ ?_ runs
  · exact ⟨0, ⟨stream, rfl, rfl⟩, Nat.zero_le _, Nat.zero_le _, rfl, fun _ => rfl,
      by simp⟩
  · rintro trace call input next actions ⟨n, draws⟩ _ stepped
    exact draws.step (completed_of_step stepped)

end Draws

/-! ## The writers -/

/-- A call of a writer with a body that is given by its reads. -/
structure Emits (dest : ℕ → Option ErrorCode) (head : Bytes) (body : Option Reads)
    (start : WriteCall Reads) : Prop where
  finishes : ∃ trace call,
    Runs (writeStep Reads.read) anyInput start trace call ∧
      call.phase.isDone = true
  /-- Until then, what has been passed is what comes first, and the callback is left alone. -/
  before : ∀ trace call,
    Runs (writeStep Reads.read) anyInput start trace call →
      call.phase.isDone = false → callbacks trace = [] ∧ passed trace <+: head :: parts body
  after : ∀ trace call,
    Runs (writeStep Reads.read) anyInput start trace call →
      call.phase.isDone = true →
        ∃ ec, callbacks trace = [ec] ∧ Outcome dest head body (passed trace) ec

/-- A call of a writer with a `StreamBodySource` of this length. -/
structure Bounded (head : Bytes) (remaining : ℕ) (stream : InStream)
    (examined : ℕ → UInt8) (start : WriteCall SourceBody) : Prop where
  finishes : ∃ trace call,
    Runs (writeStep (SourceBody.read examined)) anyInput start trace call ∧
      call.phase.isDone = true
  calls : ∀ trace call,
    Runs (writeStep (SourceBody.read examined)) anyInput start trace call →
      (callbacks trace).length = call.phase.isDone.toNat
  /-- The first `n` bytes have been taken from the stream, and are passed behind the head. -/
  takes : ∀ trace call,
    Runs (writeStep (SourceBody.read examined)) anyInput start trace call →
      ∃ n ≤ remaining, ∃ left, call.phase.body = some left ∧
        left.stream.bytes = stream.bytes.drop n ∧ n ≤ stream.bytes.length ∧
        (call.phase.isDone = true → (passed trace).flatten = head ++ stream.bytes.take n) ∧
        (callbacks trace = [none] → remaining ≤ stream.bytes.length → n = remaining)

theorem emits_called (dest : ℕ → Option ErrorCode) (head : Bytes) (body : Option Reads) :
    Emits dest head body ⟨dest, 0, .called head body⟩ := by
  refine ⟨?_, ?_, ?_⟩
  · have shrinks : ∀ (body : Reads) data rest, body.read = (.ok data, rest) → data ≠ [] →
        rest.pieces.length < body.pieces.length := by
      rintro ⟨pieces, ending⟩ data rest isRead nonempty
      cases pieces with
      | nil =>
        rcases ending with _ | ec
        · cases isRead
          exact absurd rfl nonempty
        · cases isRead
      | cons piece later =>
        cases isRead
        exact Nat.lt_succ_self _
    exact exists_done shrinks _
  · intro trace call runs unfinished
    cases along_of_runs runs with
    | called => exact ⟨rfl, List.nil_prefix⟩
    | head => exact ⟨rfl, by simp⟩
    | reading reads k trace sent passes quiet =>
      refine ⟨quiet, ?_⟩
      rw [passes]
      exact List.cons_prefix_cons.mpr ⟨rfl, List.take_prefix k _⟩
    | writing reads k trace sent isPiece passes quiet =>
      refine ⟨quiet, ?_⟩
      rw [passes]
      exact List.cons_prefix_cons.mpr ⟨rfl, List.take_prefix (k + 1) _⟩
    | done => cases unfinished
  · intro trace call runs finished
    cases along_of_runs runs with
    | done body left writes trace ec calls outcome => exact ⟨ec, calls, outcome⟩
    | _ => cases finished

theorem bounded_called (dest : ℕ → Option ErrorCode) (head : Bytes) (remaining : ℕ)
    (stream : InStream) (examined : ℕ → UInt8) :
    Bounded head remaining stream examined
      ⟨dest, 0, .called head (some ⟨.stream remaining, stream⟩)⟩ := by
  refine ⟨?_, fun _ _ => callbacks_of_runs, ?_⟩
  · have shrinks : ∀ (body : SourceBody) data rest, body.read examined = (.ok data, rest) →
        data ≠ [] → rest.source.held + rest.stream.bytes.length <
          body.source.held + body.stream.bytes.length := by
      intro body data rest isRead nonempty
      rcases isResult : body.source.readSome examined pumpSize body.stream with
        ⟨source, result, left⟩
      simp only [SourceBody.read, isResult] at isRead
      cases isRead
      exact BodySource.measure_readSome isResult nonempty
    exact exists_done shrinks _
  · intro trace call runs
    rcases draws_of_runs runs with ⟨n, draws⟩
    rcases draws.isBody with ⟨left, isBody, isLeft⟩
    refine ⟨n, draws.within, _, isBody, isLeft, draws.available, ?_, ?_⟩
    · intro finished
      rcases passed_of_runs runs with ⟨rfl, rfl⟩ | ⟨_, passes⟩
      · cases finished
      · rw [passes, draws.data]
    · intro success enough
      have ended := draws.ended (by simp [success])
      omega

/--
Both writers pass the head and exactly the body to the destination, up to the first failure,
and invoke the callback once with that failure or with success; from a `StreamBodySource`
they take no more than its length, and all of it on success if it is there.
-/
theorem writers_exact (dest : ℕ → Option ErrorCode) (request : HttpRequestHead)
    (response : HttpResponseHead) (body : Option Reads) (remaining : ℕ) (stream : InStream)
    (examined : ℕ → UInt8) :
    (Emits dest (requestBytes request) body (asyncWriteRequest dest request body) ∧
      Emits dest (responseBytes response) body (asyncWriteResponse dest response body)) ∧
    Bounded (requestBytes request) remaining stream examined
      (asyncWriteRequest dest request (some ⟨.stream remaining, stream⟩)) ∧
    Bounded (responseBytes response) remaining stream examined
      (asyncWriteResponse dest response (some ⟨.stream remaining, stream⟩)) :=
  ⟨⟨emits_called dest _ body, emits_called dest _ body⟩,
    bounded_called dest _ remaining stream examined,
    bounded_called dest _ remaining stream examined⟩

end H1Codec

end ReverseProxy
