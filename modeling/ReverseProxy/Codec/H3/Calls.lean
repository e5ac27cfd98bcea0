import ReverseProxy.Codec.H3.Message
import ReverseProxy.Machine.Run

/-!
# Calls of the HTTP/3 codec

The asynchronous part of `H3Codec` (`codec/h3_codec.cpp`) and of `pump_body_to_stream`
(`codec/http_message.cpp`): what a call does with its caller's callback.  The transport may
run the closure that it is handed before it returns, later, or not at all if it returns
false.  The caller's callback has been moved into that closure, so the branch for
transports that return false invokes an empty one.

No operation of the transport or of the body source has to complete: `outstanding` is the one
that a call waits for.  A `QuicTransportStream` that is closed before its headers, for one,
has returned true and never runs the closure.
-/

namespace ReverseProxy

open Machine Text

namespace H3Codec

/-- An invocation of a callback. -/
inductive CallEntry (ρ : Type) where
  /-- The caller's callback. -/
  | called (result : ρ)
  /-- A callback that has been moved from. -/
  | calledMoved (ec : ErrorCode)
  deriving DecidableEq

/-- The caller's callback is invoked once, and nothing else is. -/
def CalledOnce {ρ : Type} (calls : List (CallEntry ρ)) : Prop :=
  ∃ result, calls = [.called result]

/-- An operation of the transport or of the body source. -/
inductive Operation where
  | takeHeaders
  | sendHeaders
  | readBody
  | writePiece
  | shutdown
  deriving DecidableEq

/-! ## Parsing -/

/-- A call of `async_parse_request` or `async_parse_response`. -/
structure ParseCall where
  /-- What `async_take_headers` has returned. -/
  returned : Option Bool := none
  /-- The transport has run the closure. -/
  taken : Bool := false
  deriving DecidableEq

/-- What the transport does. -/
inductive ParseInput where
  | headersTaken (result : Except ErrorCode HeaderList)
  | returns (ok : Bool)

/-- The operation that completes. -/
def ParseInput.completes : ParseInput → Option Operation
  | .headersTaken _ => some .takeHeaders
  | .returns _ => none

/-- The two functions differ in what they make of the headers. -/
def parseStep {ρ : Type} (interpret : HeaderList → ρ) (call : ParseCall) :
    ParseInput → Option (ParseCall × List (CallEntry (Except ErrorCode ρ)))
  | .headersTaken result =>
    if call.taken ∨ call.returned = some false then none
    else some ({ call with taken := true }, [.called (result.map interpret)])
  | .returns ok =>
    if call.returned.isSome then none
    else
      some ({ call with returned := some ok },
        if ok then [] else [.calledMoved .operationNotSupported])

/-- A step of `async_parse_request`. -/
def parseRequestStep := parseStep asyncParseRequest

/-- A step of `async_parse_response`. -/
def parseResponseStep := parseStep asyncParseResponse

/-- The operation that has not completed, unless the transport has refused it. -/
def ParseCall.outstanding (call : ParseCall) : Option Operation :=
  if call.taken ∨ call.returned = some false then none else some .takeHeaders

/-! ## Writing -/

/-- What a call of a writer waits for. -/
inductive WritePhase where
  /-- `async_send_headers` has not run its closure. -/
  | sending
  | reading
  | writing (data : Bytes)
  | shutting
  | done
  deriving DecidableEq

/-- A call of `async_write_request` or `async_write_response`. -/
structure WriteCall where
  headers : HeaderList
  hasBody : Bool
  /-- What `async_send_headers` has returned. -/
  returned : Option Bool := none
  phase : WritePhase := .sending
  deriving DecidableEq

/-- What the transport and the body source do. -/
inductive WriteInput where
  | headersSent (ec : Option ErrorCode)
  | bodyRead (result : ReadResult)
  | pieceWritten (ec : Option ErrorCode)
  | shut (ec : Option ErrorCode)
  | returns (ok : Bool)
  deriving DecidableEq

/-- The operation that completes. -/
def WriteInput.completes : WriteInput → Option Operation
  | .headersSent _ => some .sendHeaders
  | .bodyRead _ => some .readBody
  | .pieceWritten _ => some .writePiece
  | .shut _ => some .shutdown
  | .returns _ => none

/-- What a call does, and what has come of the operations before. -/
inductive WriteEntry where
  | headersSent (ec : Option ErrorCode)
  | bodyRead (result : ReadResult)
  | pieceWritten (data : Bytes) (ec : Option ErrorCode)
  /-- `async_shutdown` is called. -/
  | fin
  | callback (call : CallEntry (Option ErrorCode))
  deriving DecidableEq

/-- A call of `async_write_request` that has handed the headers over. -/
def asyncWriteRequest (head : HttpRequestHead) (body : Option BodySource) : WriteCall :=
  { headers := requestHeaderList head, hasBody := body.isSome }

/-- A call of `async_write_response` that has handed the headers over. -/
def asyncWriteResponse (head : HttpResponseHead) (body : Option BodySource) : WriteCall :=
  { headers := responseHeaderList head, hasBody := body.isSome }

/-- The closure `finish`, which makes no use of the error that it is passed. -/
def finish (call : WriteCall) (_ec : Option ErrorCode) : WriteCall × List WriteEntry :=
  ({ call with phase := .shutting }, [.fin])

/-- The closure that `async_send_headers` runs. -/
def onHeadersSent (call : WriteCall) (ec : Option ErrorCode) : WriteCall × List WriteEntry :=
  if ec.isSome ∨ call.hasBody = false then finish call ec
  else ({ call with phase := .reading }, [])

/-- The pump, when a read of the body completes. -/
def onBodyRead (call : WriteCall) : ReadResult → WriteCall × List WriteEntry
  | .ok [] => finish call none
  | .ok data => ({ call with phase := .writing data }, [])
  | .error ec => finish call (some ec)

/-- The pump, when a write completes. -/
def onPieceWritten (call : WriteCall) : Option ErrorCode → WriteCall × List WriteEntry
  | none => ({ call with phase := .reading }, [])
  | some ec => finish call (some ec)

/-- What completed, and then what the callback does. -/
def completing (entry : WriteEntry) (result : WriteCall × List WriteEntry) :
    WriteCall × List WriteEntry :=
  (result.1, entry :: result.2)

/-- A step of either writer. -/
def writeStep (call : WriteCall) (input : WriteInput) : Option (WriteCall × List WriteEntry) :=
  match call.phase, input with
  | .sending, .headersSent ec =>
    if call.returned = some false then none
    else some (completing (.headersSent ec) (onHeadersSent call ec))
  | .reading, .bodyRead result => some (completing (.bodyRead result) (onBodyRead call result))
  | .writing data, .pieceWritten ec =>
    some (completing (.pieceWritten data ec) (onPieceWritten call ec))
  | .shutting, .shut ec => some ({ call with phase := .done }, [.callback (.called ec)])
  | _, .returns ok =>
    if call.returned.isSome then none
    else
      some ({ call with returned := some ok },
        if ok then [] else [.callback (.calledMoved .operationNotSupported)])
  | _, _ => none

/-- The operation that has been started last and has not completed. -/
def WriteCall.outstanding (call : WriteCall) : Option Operation :=
  match call.phase with
  | .sending => if call.returned = some false then none else some .sendHeaders
  | .reading => some .readBody
  | .writing _ => some .writePiece
  | .shutting => some .shutdown
  | .done => none

/-- The invocations of callbacks. -/
def callsOf (trace : List WriteEntry) : List (CallEntry (Option ErrorCode)) :=
  trace.filterMap fun
    | .callback call => some call
    | _ => none

variable {result : WriteCall × List WriteEntry}

theorem writeStep_cases {call : WriteCall} {input : WriteInput}
    (taken : writeStep call input = some result) :
    (∃ ec, call.phase = .sending ∧ call.returned ≠ some false ∧
        result = completing (.headersSent ec) (onHeadersSent call ec)) ∨
      (∃ read, call.phase = .reading ∧
        result = completing (.bodyRead read) (onBodyRead call read)) ∨
      (∃ data ec, call.phase = .writing data ∧
        result = completing (.pieceWritten data ec) (onPieceWritten call ec)) ∨
      (∃ ec, call.phase = .shutting ∧
        result = ({ call with phase := .done }, [.callback (.called ec)])) ∨
      ∃ ok, call.returned = none ∧
        result = ({ call with returned := some ok },
          if ok then [] else [.callback (.calledMoved .operationNotSupported)]) := by
  unfold writeStep at taken
  split at taken
  · rename_i ec isSending
    rw [Option.ite_none_left_eq_some, Option.some.injEq] at taken
    exact Or.inl ⟨ec, isSending, taken.1, taken.2.symm⟩
  · rename_i read isReading
    exact Or.inr (Or.inl ⟨read, isReading, (Option.some.inj taken).symm⟩)
  · rename_i data ec isWriting
    exact Or.inr (Or.inr (Or.inl ⟨data, ec, isWriting, (Option.some.inj taken).symm⟩))
  · rename_i ec isShutting
    exact Or.inr (Or.inr (Or.inr (Or.inl ⟨ec, isShutting, (Option.some.inj taken).symm⟩)))
  · rename_i ok
    rw [Option.ite_none_left_eq_some, Option.some.injEq, Option.not_isSome_iff_eq_none] at taken
    exact Or.inr (Or.inr (Or.inr (Or.inr ⟨ok, taken.1, taken.2.symm⟩)))
  · cases taken

/-! ## Outstanding operations -/

/-- An operation is outstanding exactly if its completion can still come. -/
theorem isSome_parseStep_iff {ρ : Type} (interpret : HeaderList → ρ) (call : ParseCall)
    {input : ParseInput} {operation : Operation} (completes : input.completes = some operation) :
    (parseStep interpret call input).isSome = true ↔ call.outstanding = some operation := by
  cases input with
  | headersTaken result =>
    cases completes
    unfold parseStep ParseCall.outstanding
    split_ifs <;> simp
  | returns ok => cases completes

theorem isSome_writeStep_iff (call : WriteCall) {input : WriteInput} {operation : Operation}
    (completes : input.completes = some operation) :
    (writeStep call input).isSome = true ↔ call.outstanding = some operation := by
  rcases call with ⟨headers, hasBody, returned, phase⟩
  unfold writeStep WriteCall.outstanding
  cases input with
  | returns ok => cases completes
  | headersSent ec | bodyRead result | pieceWritten ec | shut ec =>
    cases completes
    cases phase with
    | sending =>
      dsimp only
      split_ifs <;> simp
    | reading | writing | shutting | done => simp

/-! ## The caller's callback -/

section Callback

variable {ρ : Type} {calls : List (CallEntry ρ)} {returned : Option Bool} {finished : Bool}

/-- An empty callback has been invoked, or only the caller's, when the call was finished. -/
structure CallLog (returned : Option Bool) (finished : Bool) (calls : List (CallEntry ρ)) :
    Prop where
  moved : returned = some false → ∃ ec, .calledMoved ec ∈ calls
  started : returned ≠ some false → finished = false → calls = []
  finished : returned ≠ some false → finished = true → CalledOnce calls

theorem callLog_start : CallLog none false ([] : List (CallEntry ρ)) :=
  ⟨nofun, fun _ _ => rfl, nofun⟩

theorem CallLog.called (log : CallLog returned false calls) (result : ρ) :
    CallLog returned true (calls ++ [.called result]) := by
  refine ⟨?_, nofun, ?_⟩
  · intro refused
    rcases log.moved refused with ⟨ec, isMoved⟩
    exact ⟨ec, List.mem_append_left _ isMoved⟩
  · intro accepted _
    exact ⟨result, by rw [log.started accepted rfl, List.nil_append]⟩

theorem CallLog.returns (log : CallLog none finished calls) (ok : Bool) :
    CallLog (some ok) finished
      (calls ++ if ok then [] else [.calledMoved .operationNotSupported]) := by
  cases ok with
  | true =>
    rw [if_pos rfl, List.append_nil]
    exact ⟨nofun, fun _ => log.started nofun, fun _ => log.finished nofun⟩
  | false =>
    refine ⟨?_, fun accepted => absurd rfl accepted, fun accepted => absurd rfl accepted⟩
    intro _
    exact ⟨_, List.mem_append_right _ (List.mem_singleton.mpr rfl)⟩

/-- A call that has returned has called back exactly if it was accepted and is finished. -/
theorem CallLog.calledOnce_iff {ok : Bool} (log : CallLog (some ok) finished calls) :
    CalledOnce calls ↔ ok = true ∧ finished = true := by
  cases ok with
  | false =>
    refine iff_of_false ?_ (by simp)
    rintro ⟨result, isCalls⟩
    rcases log.moved rfl with ⟨ec, isMoved⟩
    rw [isCalls, List.mem_singleton] at isMoved
    cases isMoved
  | true =>
    cases finished with
    | false =>
      refine iff_of_false ?_ (by simp)
      rintro ⟨result, isCalls⟩
      rw [log.started nofun rfl] at isCalls
      cases isCalls
    | true => exact iff_of_true (log.finished nofun rfl) ⟨rfl, rfl⟩

theorem callLog_of_parses {interpret : HeaderList → ρ}
    {trace : List (CallEntry (Except ErrorCode ρ))} {call : ParseCall}
    (runs : Runs (parseStep interpret) anyInput {} trace call) :
    CallLog call.returned call.taken trace := by
  apply Runs.invariant callLog_start ?_ runs
  intro trace call input next entries log _ taken
  cases input with
  | headersTaken result =>
    rw [parseStep, Option.ite_none_left_eq_some, not_or, Bool.not_eq_true] at taken
    rcases taken with ⟨⟨notTaken, -⟩, ⟨⟩⟩
    rw [notTaken] at log
    exact log.called _
  | returns ok =>
    rw [parseStep, Option.ite_none_left_eq_some, Option.not_isSome_iff_eq_none] at taken
    rcases taken with ⟨notReturned, ⟨⟩⟩
    rw [notReturned] at log
    exact log.returns ok

/-- The caller's callback of a parse that has returned. -/
theorem calledOnce_iff_of_parses {interpret : HeaderList → ρ}
    {trace : List (CallEntry (Except ErrorCode ρ))} {call : ParseCall} {ok : Bool}
    (runs : Runs (parseStep interpret) anyInput {} trace call)
    (returned : call.returned = some ok) :
    CalledOnce trace ↔ ok = true ∧ call.outstanding = none := by
  have log := callLog_of_parses runs
  rw [returned] at log
  rw [log.calledOnce_iff, ParseCall.outstanding, returned]
  cases ok with
  | false => simp
  | true => simp

theorem callsOf_append (first second : List WriteEntry) :
    callsOf (first ++ second) = callsOf first ++ callsOf second :=
  List.filterMap_append

theorem callsOf_completing {entry : WriteEntry} (silent : callsOf [entry] = [])
    (rest : callsOf result.2 = []) : callsOf (completing entry result).2 = [] := by
  rw [completing, ← List.singleton_append, callsOf_append, silent, rest]
  rfl

/-- Neither the headers nor the body complete a call. -/
structure Continues (call : WriteCall) (result : WriteCall × List WriteEntry) : Prop where
  returned : result.1.returned = call.returned
  silent : callsOf result.2 = []
  phase : result.1.phase ≠ .done

theorem continues_finish (call : WriteCall) (ec : Option ErrorCode) :
    Continues call (finish call ec) :=
  ⟨rfl, rfl, nofun⟩

theorem continues_onHeadersSent (call : WriteCall) (ec : Option ErrorCode) :
    Continues call (onHeadersSent call ec) := by
  unfold onHeadersSent
  split
  · exact continues_finish call ec
  · exact ⟨rfl, rfl, nofun⟩

theorem continues_onBodyRead (call : WriteCall) (result : ReadResult) :
    Continues call (onBodyRead call result) := by
  unfold onBodyRead
  split
  · exact continues_finish call none
  · exact ⟨rfl, rfl, nofun⟩
  · exact continues_finish call _

theorem continues_onPieceWritten (call : WriteCall) (ec : Option ErrorCode) :
    Continues call (onPieceWritten call ec) := by
  cases ec with
  | none => exact ⟨rfl, rfl, nofun⟩
  | some ec => exact continues_finish call (some ec)

end Callback

/-- The log of a call of one of the writers. -/
def WriteLog (call : WriteCall) (trace : List WriteEntry) : Prop :=
  CallLog call.returned (decide (call.phase = .done)) (callsOf trace)

theorem WriteLog.continues {call : WriteCall} {trace : List WriteEntry} (log : WriteLog call trace)
    {entry : WriteEntry} (notDone : call.phase ≠ .done) (silent : callsOf [entry] = [])
    (continues : Continues call result) :
    WriteLog (completing entry result).1 (trace ++ (completing entry result).2) := by
  have sameReturned : (completing entry result).1.returned = call.returned := continues.returned
  have stillNotDone : (completing entry result).1.phase ≠ .done := continues.phase
  rw [WriteLog, callsOf_append, callsOf_completing silent continues.silent, List.append_nil,
    sameReturned, decide_eq_false stillNotDone]
  rw [WriteLog, decide_eq_false notDone] at log
  exact log

theorem WriteLog.step {call : WriteCall} {trace : List WriteEntry} (log : WriteLog call trace)
    {input : WriteInput} (taken : writeStep call input = some result) :
    WriteLog result.1 (trace ++ result.2) := by
  rcases writeStep_cases taken with ⟨ec, phase, -, rfl⟩ | ⟨read, phase, rfl⟩ |
    ⟨data, ec, phase, rfl⟩ | ⟨ec, phase, rfl⟩ | ⟨ok, notReturned, rfl⟩
  · exact log.continues (by simp [phase]) rfl (continues_onHeadersSent call ec)
  · exact log.continues (by simp [phase]) rfl (continues_onBodyRead call read)
  · exact log.continues (by simp [phase]) rfl (continues_onPieceWritten call ec)
  · rw [WriteLog, decide_eq_false (by simp [phase])] at log
    rw [WriteLog, callsOf_append]
    exact log.called ec
  · rw [WriteLog, notReturned] at log
    have calls : callsOf (if ok then [] else [.callback (.calledMoved .operationNotSupported)]) =
        if ok then [] else [.calledMoved .operationNotSupported] := by
      cases ok <;> rfl
    rw [WriteLog, callsOf_append, calls]
    exact log.returns ok

theorem writeLog_of_runs {start call : WriteCall} {trace : List WriteEntry}
    (fresh : start.returned = none) (sending : start.phase = .sending)
    (runs : Runs writeStep anyInput start trace call) : WriteLog call trace := by
  apply Runs.invariant ?_ (fun log _ taken => log.step taken) runs
  rw [WriteLog, fresh, sending]
  exact callLog_start

/-- The caller's callback of a write that has returned. -/
theorem WriteLog.calledOnce_iff {call : WriteCall} {trace : List WriteEntry} {ok : Bool}
    (log : WriteLog call trace) (returned : call.returned = some ok) :
    CalledOnce (callsOf trace) ↔ ok = true ∧ call.outstanding = none := by
  rw [WriteLog, returned] at log
  rw [CallLog.calledOnce_iff log, decide_eq_true_eq, WriteCall.outstanding, returned]
  cases ok with
  | false => simp
  | true => cases call.phase <;> simp

/--
A call of any of the four functions that has returned has invoked the caller's callback exactly
once, and no empty one, exactly if the transport has returned true and no operation that the
call has started is outstanding; and an operation is outstanding exactly if it can complete.
-/
theorem called_once_iff (head : HttpRequestHead) (response : HttpResponseHead)
    (body : Option BodySource) :
    (∀ trace call ok, Runs parseRequestStep anyInput {} trace call →
      call.returned = some ok → (CalledOnce trace ↔ ok = true ∧ call.outstanding = none)) ∧
    (∀ trace call ok, Runs parseResponseStep anyInput {} trace call →
      call.returned = some ok → (CalledOnce trace ↔ ok = true ∧ call.outstanding = none)) ∧
    (∀ trace call ok,
      Runs writeStep anyInput (asyncWriteRequest head body) trace call →
      call.returned = some ok →
        (CalledOnce (callsOf trace) ↔ ok = true ∧ call.outstanding = none)) ∧
    (∀ trace call ok,
      Runs writeStep anyInput (asyncWriteResponse response body) trace call →
      call.returned = some ok →
        (CalledOnce (callsOf trace) ↔ ok = true ∧ call.outstanding = none)) ∧
    (∀ call input operation, input.completes = some operation →
      ((parseRequestStep call input).isSome = true ↔ call.outstanding = some operation) ∧
      ((parseResponseStep call input).isSome = true ↔ call.outstanding = some operation)) ∧
    ∀ call input operation, input.completes = some operation →
      ((writeStep call input).isSome = true ↔ call.outstanding = some operation) := by
  refine ⟨?_, ?_, ?_, ?_, ?_, ?_⟩
  · intro trace call ok runs returned
    exact calledOnce_iff_of_parses runs returned
  · intro trace call ok runs returned
    exact calledOnce_iff_of_parses runs returned
  · intro trace call ok runs returned
    exact (writeLog_of_runs rfl rfl runs).calledOnce_iff returned
  · intro trace call ok runs returned
    exact (writeLog_of_runs rfl rfl runs).calledOnce_iff returned
  · intro call input operation completes
    exact ⟨isSome_parseStep_iff _ call completes, isSome_parseStep_iff _ call completes⟩
  · intro call input operation completes
    exact isSome_writeStep_iff call completes

theorem called_once_bodiless :
    ∃ trace call,
      Runs writeStep anyInput (asyncWriteRequest {} none) trace call ∧
        call.returned = some true ∧ call.outstanding = none ∧ CalledOnce (callsOf trace) := by
  have reached : (run writeStep (fun _ _ => true) (asyncWriteRequest {} none)
      [.headersSent none, .returns true, .shut none]).any
        (fun last => decide (last.1.returned = some true ∧ last.1.outstanding = none)) = true := by
    decide +kernel
  rcases exists_runs_any reached with ⟨trace, call, runs, returned, idle⟩
  refine ⟨trace, call, runs, returned, idle, ?_⟩
  exact ((called_once_iff {} {} none).2.2.1 trace call true runs returned).mpr ⟨rfl, idle⟩

/--
On a closed stream `async_take_headers` only returns false; on one that is closed before its
headers it has returned true, and the closure is left in `headers_cb_`.
-/
theorem closedStream_not_calledOnce :
    (∃ trace call, Runs parseRequestStep anyInput {} trace call ∧
      call.returned = some false ∧ call.outstanding = none ∧ ¬CalledOnce trace) ∧
    ∃ trace call, Runs parseRequestStep anyInput {} trace call ∧
      call.returned = some true ∧ call.outstanding = some .takeHeaders ∧ ¬CalledOnce trace := by
  constructor
  · have taken : parseRequestStep {} (.returns false) =
        some ({ returned := some false }, [.calledMoved .operationNotSupported]) := rfl
    refine ⟨_, _, .snoc .refl trivial taken, rfl, rfl, ?_⟩
    rintro ⟨result, isCall⟩
    cases isCall
  · have taken : parseRequestStep {} (.returns true) = some ({ returned := some true }, []) := rfl
    refine ⟨_, _, .snoc .refl trivial taken, rfl, rfl, ?_⟩
    rintro ⟨result, isCall⟩
    cases isCall

end H3Codec

end ReverseProxy
