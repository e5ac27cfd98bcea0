import ReverseProxy.Codec.H3.Message
import ReverseProxy.Machine.Run

/-!
# A QUIC stream and its callbacks

`QuicTransportStream` (`transport/quic_transport.cpp`).  Completion callbacks run inside the
methods that complete an operation, and may call the stream again before they return.  So
the stack of the callbacks that are running is a part of the state: each of its frames is
what is left of the method that invoked the callback.  The stream is called from outside or
from the innermost callback, that callback returns, or, when none is running, lsquic
reports an event.  What the functions of lsquic return is part of the input.

A `std::function` that has been moved from is empty.
-/

namespace ReverseProxy

open Machine Text

/-- What `lsquic_stream_read` returns; no bytes are the end of the stream. -/
inductive LsquicRead where
  | data (bytes : Bytes)
  | again
  | reset
  | failed
  deriving DecidableEq, Repr

/-- What `lsquic_stream_write` returns. -/
inductive LsquicWrite where
  | accepted (n : ℕ)
  | reset
  | failed
  deriving DecidableEq, Repr

namespace QuicTransportStream

/-- `WriteOp`. -/
structure WriteOp where
  data : Bytes
  offset : ℕ := 0
  cb : ℕ
  deriving DecidableEq

/-- What follows the loop that completes all queued writes. -/
inductive FlushThen where
  | close
  | reset
  | pump
  deriving DecidableEq

/-- The rest of a method, behind the callback that it has invoked. -/
inductive Frame where
  /-- The callback was invoked last. -/
  | returns
  /-- `on_close`, behind the read callback. -/
  | closeRead
  /-- `on_close`, behind the shutdown callback. -/
  | closeShutdown
  /-- `on_reset`, behind the read callback. -/
  | resetRead (how : ℕ)
  /-- A loop over the queued writes, behind the callback of the first of them. -/
  | flush (ec : ErrorCode) (next : FlushThen)
  deriving DecidableEq

end QuicTransportStream

open QuicTransportStream in
/-- `QuicTransportStream`. -/
structure QuicTransportStream where
  /-- Whether `stream_` points to the lsquic stream. -/
  stream : Bool := true
  readBuf : ℕ := 0
  readCb : Option ℕ := none
  headersCb : Option ℕ := none
  shutdownCb : Option ℕ := none
  writeQueue : List WriteOp := []
  writing : Bool := false
  /-- The callbacks are numbered in the order in which the stream is handed them. -/
  nextCb : ℕ := 0
  /-- The running callbacks, the innermost first. -/
  stack : List Frame := []
  deriving DecidableEq

namespace QuicTransportStream

/-- The functions of lsquic that are passed the stream handle. -/
inductive LsquicCall where
  | wantread (on : Bool)
  | wantwrite
  | read (size : ℕ)
  | write (data : Bytes)
  | shutdown
  | getHset
  | sendHeaders (headers : HeaderList)
  | flush
  deriving DecidableEq

/-- What a callback is told. -/
inductive CallbackResult where
  | read (result : ReadResult)
  | written (ec : Option ErrorCode) (n : ℕ)
  | headers (list : HeaderList)
  | shut
  deriving DecidableEq

/-- What the stream does. -/
inductive Effect where
  /-- The stream has taken a callback that it has to invoke. -/
  | accepted (cb : ℕ)
  | invoked (cb : ℕ) (result : CallbackResult)
  /-- A function of lsquic is called; `handle` is false if it is passed a null pointer. -/
  | lsquic (handle : Bool) (call : LsquicCall)
  deriving DecidableEq

/-- A call of the stream, with what lsquic returns on the way. -/
inductive Call where
  | asyncReadSome (size : ℕ)
  | asyncWriteSome (data : Bytes) (write : LsquicWrite)
  | asyncShutdown (ok : Bool)
  | asyncTakeHeaders (hset : Option HeaderList)
  | asyncSendHeaders (headers : HeaderList) (ok : Bool)
  deriving DecidableEq

/-- The callbacks of lsquic. -/
inductive Event where
  | readable (hset : Option HeaderList) (read : LsquicRead)
  | writeable (write : LsquicWrite)
  | reset (how : ℕ)
  | close
  deriving DecidableEq

/-- What can happen to a stream. -/
inductive Stimulus where
  | call (call : Call)
  | event (event : Event)
  /-- The innermost callback returns. -/
  | ret
  deriving DecidableEq

/-- The stream, and what it has done. -/
abbrev Result := QuicTransportStream × List Effect

/-- Calls a function of lsquic. -/
def touch (s : QuicTransportStream) (call : LsquicCall) : Effect := .lsquic s.stream call

/-- Effects that come before those of the rest. -/
def behind (effects : List Effect) (rest : Result) : Result := (rest.1, effects ++ rest.2)

/-- Invokes a callback. -/
def invoke (s : QuicTransportStream) (frame : Frame) (cb : ℕ) (result : CallbackResult) : Result :=
  ({ s with stack := frame :: s.stack }, [.invoked cb result])

/-- The end of the methods that complete all queued writes. -/
def afterFlush (s : QuicTransportStream) : FlushThen → Result
  | .pump => (s, [])
  | .reset => ({ s with writing := false }, [])
  | .close =>
    match s.shutdownCb with
    | some cb => invoke { s with shutdownCb := none } .closeShutdown cb .shut
    | none => ({ s with writing := false }, [])

/-- The loop over the queued writes: the callback of the first runs while it is still queued. -/
def flush (s : QuicTransportStream) (ec : ErrorCode) (next : FlushThen) : Result :=
  match s.writeQueue with
  | op :: _ => invoke s (.flush ec next) op.cb (.written (some ec) 0)
  | [] => s.afterFlush next

variable {s : QuicTransportStream}

theorem flush_nil (drained : s.writeQueue = []) (ec : ErrorCode) (next : FlushThen) :
    s.flush ec next = s.afterFlush next := by
  rw [flush, drained]

theorem flush_cons {op : WriteOp} {rest : List WriteOp} (isQueue : s.writeQueue = op :: rest)
    (ec : ErrorCode) (next : FlushThen) :
    s.flush ec next = s.invoke (.flush ec next) op.cb (.written (some ec) 0) := by
  rw [flush, isQueue]

/-- `pump_write`. -/
def pumpWrite (s : QuicTransportStream) (write : LsquicWrite) : Result :=
  if s.stream = false then s.flush .eof .pump
  else if s.writing then (s, [])
  else
    match s.writeQueue with
    | [] => (s, [])
    | op :: rest =>
      behind [s.touch (.write (op.data.drop op.offset))] <|
        match write with
        | .accepted n =>
          if n = 0 then ({ s with writing := true }, [s.touch .wantwrite])
          else if op.data.length ≤ op.offset + n then
            invoke { s with writeQueue := rest } .returns op.cb
              (.written none (op.offset + n))
          else
            ({ s with
                writeQueue := { op with offset := op.offset + n } :: rest
                writing := true },
              [s.touch .wantwrite])
        | .reset =>
          invoke { s with writeQueue := rest } .returns op.cb
            (.written (some .connectionReset) 0)
        | .failed => invoke { s with writeQueue := rest } .returns op.cb (.written (some .eof) 0)

/-- `try_take_headers`. -/
def tryTakeHeaders (s : QuicTransportStream) (hset : Option HeaderList) : Result :=
  match s.headersCb with
  | none => (s, [])
  | some cb =>
    if s.stream = false then (s, [])
    else
      behind [s.touch .getHset] <|
        match hset with
        | none => (s, [])
        | some list => invoke { s with headersCb := none } .returns cb (.headers list)

/-- `async_read_some`. -/
def asyncReadSome (s : QuicTransportStream) (size cb : ℕ) : Result :=
  if s.stream = false then invoke s .returns cb (.read (.error .eof))
  else ({ s with readBuf := size, readCb := some cb }, [s.touch (.wantread true)])

/-- `async_write_some`. -/
def asyncWriteSome (s : QuicTransportStream) (data : Bytes) (write : LsquicWrite) (cb : ℕ) :
    Result :=
  pumpWrite { s with writeQueue := s.writeQueue ++ [{ data, cb }] } write

/-- The stream may be closed here, and a callback may be pending. -/
def asyncShutdown (s : QuicTransportStream) (ok : Bool) (cb : ℕ) : Result :=
  behind [s.touch .shutdown] <|
    if ok then invoke { s with shutdownCb := none } .returns cb .shut
    else ({ s with shutdownCb := some cb }, [])

/-- `async_take_headers`. -/
def asyncTakeHeaders (s : QuicTransportStream) (hset : Option HeaderList) (cb : ℕ) : Result :=
  let s := { s with headersCb := some cb }
  behind [s.touch (.wantread true)] (s.tryTakeHeaders hset)

/-- The bytes of all names and values. -/
def headerBytes (headers : HeaderList) : ℕ :=
  (headers.map fun header => header.1.length + header.2.length).sum

/-- `async_send_headers`. -/
def asyncSendHeaders (s : QuicTransportStream) (headers : HeaderList) (ok : Bool) (cb : ℕ) :
    Result :=
  if s.stream = false then invoke s .returns cb (.written (some .eof) 0)
  else if 64 * 1024 < headerBytes headers then
    invoke s .returns cb (.written (some .messageSize) 0)
  else
    behind [s.touch (.sendHeaders (H3Codec.lowerNames headers))] <|
      if ok then behind [s.touch .flush] (invoke s .returns cb (.written none 0))
      else invoke s .returns cb (.written (some .eof) 0)

/-- `on_readable`. -/
def onReadable (s : QuicTransportStream) (hset : Option HeaderList) (read : LsquicRead) : Result :=
  if s.headersCb.isSome then s.tryTakeHeaders hset
  else
    match s.readCb with
    | none => (s, [])
    | some cb =>
      let completed := { s with readCb := none }
      behind [s.touch (.read s.readBuf), s.touch (.wantread false)] <|
        match read with
        | .data bytes => invoke completed .returns cb (.read (.ok bytes))
        | .again => (s, [s.touch (.wantread true)])
        | .reset => invoke completed .returns cb (.read (.error .connectionReset))
        | .failed => invoke completed .returns cb (.read (.error .eof))

/-- `on_writeable`. -/
def onWriteable (s : QuicTransportStream) (write : LsquicWrite) : Result :=
  pumpWrite { s with writing := false } write

/-- `on_close`. -/
def onClose (s : QuicTransportStream) : Result :=
  match s.readCb with
  | some cb => invoke { s with stream := false, readCb := none } .closeRead cb (.read (.error .eof))
  | none => flush { s with stream := false } .eof .close

/-- The part of `on_reset` for the writing side. -/
def resetWrites (s : QuicTransportStream) (how : ℕ) : Result :=
  if how = 1 ∨ how = 2 then s.flush .connectionReset .reset else (s, [])

/-- `on_reset`. -/
def onReset (s : QuicTransportStream) (how : ℕ) : Result :=
  match if how = 0 ∨ how = 2 then s.readCb else none with
  | some cb =>
    invoke { s with readCb := none } (.resetRead how) cb (.read (.error .connectionReset))
  | none => s.resetWrites how

/-- A method that is handed a callback. -/
def accept (s : QuicTransportStream) (method : QuicTransportStream → ℕ → Result) : Result :=
  behind [.accepted s.nextCb] (method { s with nextCb := s.nextCb + 1 } s.nextCb)

/-- A call of the stream. -/
def perform (s : QuicTransportStream) : Call → Result
  | .asyncReadSome size => s.accept fun s cb => s.asyncReadSome size cb
  | .asyncWriteSome data write => s.accept fun s cb => s.asyncWriteSome data write cb
  | .asyncShutdown ok => s.accept fun s cb => s.asyncShutdown ok cb
  | .asyncTakeHeaders hset =>
    -- the callback is not taken when false is returned
    if s.stream = false ∨ s.headersCb.isSome then (s, [])
    else s.accept fun s cb => s.asyncTakeHeaders hset cb
  | .asyncSendHeaders headers ok => s.accept fun s cb => s.asyncSendHeaders headers ok cb

/-- A callback of lsquic. -/
def react (s : QuicTransportStream) : Event → Result
  | .readable hset read => s.onReadable hset read
  | .writeable write => s.onWriteable write
  | .reset how => s.onReset how
  | .close => s.onClose

/-- What a method does once its callback has returned. -/
def resume (s : QuicTransportStream) : Frame → Result
  | .returns => (s, [])
  | .closeRead => s.flush .eof .close
  | .closeShutdown => ({ s with writing := false }, [])
  | .resetRead how => s.resetWrites how
  | .flush ec next => flush { s with writeQueue := s.writeQueue.tail } ec next

/-- lsquic reports events of a stream until it has closed it, and none from within a callback. -/
def step (s : QuicTransportStream) : Stimulus → Option Result
  | .call call => some (s.perform call)
  | .event event => if s.stream && s.stack.isEmpty then some (s.react event) else none
  | .ret =>
    match s.stack with
    | frame :: stack => some (resume { s with stack } frame)
    | [] => none

theorem step_cases {stimulus : Stimulus} {result : Result} (taken : s.step stimulus = some result) :
    (∃ call, stimulus = .call call ∧ result = s.perform call) ∨
      (∃ event, stimulus = .event event ∧ s.stream = true ∧ s.stack = [] ∧
        result = s.react event) ∨
      ∃ frame stack, stimulus = .ret ∧ s.stack = frame :: stack ∧
        result = resume { s with stack } frame := by
  cases stimulus with
  | call call =>
    rw [step, Option.some.injEq] at taken
    exact Or.inl ⟨call, rfl, taken.symm⟩
  | event event =>
    rw [step, Option.ite_none_right_eq_some, Bool.and_eq_true, List.isEmpty_iff,
      Option.some.injEq] at taken
    rcases taken with ⟨⟨isOpen, idle⟩, isResult⟩
    exact Or.inr (Or.inl ⟨event, rfl, isOpen, idle, isResult.symm⟩)
  | ret =>
    rw [step] at taken
    cases isStack : s.stack with
    | nil => simp [isStack] at taken
    | cons frame stack =>
      rw [isStack, Option.some.injEq] at taken
      exact Or.inr (Or.inr ⟨frame, stack, rfl, rfl, taken.symm⟩)

/-! ## The effects of a step -/

/-- What `on_readable` passes to the read callback, if it invokes it. -/
def readResult : LsquicRead → Option ReadResult
  | .data bytes => some (.ok bytes)
  | .again => none
  | .reset => some (.error .connectionReset)
  | .failed => some (.error .eof)

/-- The situations in which a read callback is invoked, and with what. -/
inductive ReadOrigin (s : QuicTransportStream) : Stimulus → ReadResult → Prop where
  | closed {size : ℕ} : s.stream = false → ReadOrigin s (.call (.asyncReadSome size)) (.error .eof)
  | readable {hset : Option HeaderList} {read : LsquicRead} {result : ReadResult} :
      s.headersCb = none → s.readCb ≠ none → readResult read = some result →
        ReadOrigin s (.event (.readable hset read)) result
  | close : s.readCb ≠ none → ReadOrigin s (.event .close) (.error .eof)
  | reset {how : ℕ} : ReadOrigin s (.event (.reset how)) (.error .connectionReset)

/-- Properties of effects that every step has, but for reads and for `async_shutdown`. -/
structure Admits (P : Effect → Prop) : Prop where
  accepted : ∀ cb, P (.accepted cb)
  lsquic : ∀ call, P (.lsquic true call)
  written : ∀ cb ec n, P (.invoked cb (.written ec n))
  headers : ∀ cb list, P (.invoked cb (.headers list))
  shut : ∀ cb, P (.invoked cb .shut)

/-- Every effect meets `P`. -/
def Each (P : Effect → Prop) (effects : List Effect) : Prop := ∀ effect ∈ effects, P effect

section Each

variable {P : Effect → Prop}

theorem each_nil : Each P [] := by
  intro effect isEffect
  cases isEffect

theorem each_singleton {effect : Effect} (holds : P effect) : Each P [effect] := by
  intro other isEffect
  rw [List.mem_singleton.mp isEffect]
  exact holds

theorem Each.append {first second : List Effect} (each : Each P first) (each' : Each P second) :
    Each P (first ++ second) := by
  intro effect isEffect
  rcases List.mem_append.mp isEffect with early | late
  · exact each effect early
  · exact each' effect late

theorem Admits.each_touch (admits : Admits P) (isOpen : s.stream = true) (call : LsquicCall) :
    Each P [s.touch call] := by
  rw [touch, isOpen]
  exact each_singleton (admits.lsquic call)

theorem Admits.each_afterFlush (admits : Admits P) (s : QuicTransportStream) (next : FlushThen) :
    Each P (s.afterFlush next).2 := by
  cases next with
  | pump => exact each_nil
  | reset => exact each_nil
  | close =>
    unfold afterFlush
    cases s.shutdownCb with
    | none => exact each_nil
    | some cb => exact each_singleton (admits.shut cb)

theorem Admits.each_flush (admits : Admits P) (s : QuicTransportStream) (ec : ErrorCode)
    (next : FlushThen) : Each P (s.flush ec next).2 := by
  cases isQueue : s.writeQueue with
  | nil =>
    rw [flush_nil isQueue]
    exact admits.each_afterFlush s next
  | cons op rest =>
    rw [flush_cons isQueue]
    exact each_singleton (admits.written op.cb (some ec) 0)

theorem Admits.each_pumpWrite (admits : Admits P) (s : QuicTransportStream)
    (write : LsquicWrite) : Each P (s.pumpWrite write).2 := by
  unfold pumpWrite
  split
  · exact admits.each_flush s _ _
  · rename_i notClosed
    have isOpen : s.stream = true := Bool.eq_true_of_not_eq_false notClosed
    split
    · exact each_nil
    · cases s.writeQueue with
      | nil => exact each_nil
      | cons op rest =>
        apply (admits.each_touch isOpen _).append
        cases write with
        | accepted n =>
          dsimp only
          split_ifs
          · exact admits.each_touch isOpen _
          · exact each_singleton (admits.written _ _ _)
          · exact admits.each_touch isOpen _
        | reset => exact each_singleton (admits.written _ _ _)
        | failed => exact each_singleton (admits.written _ _ _)

theorem Admits.each_tryTakeHeaders (admits : Admits P) (s : QuicTransportStream)
    (hset : Option HeaderList) : Each P (s.tryTakeHeaders hset).2 := by
  unfold tryTakeHeaders
  cases s.headersCb with
  | none => exact each_nil
  | some cb =>
    dsimp only
    split
    · exact each_nil
    · rename_i notClosed
      apply (admits.each_touch (Bool.eq_true_of_not_eq_false notClosed) _).append
      cases hset with
      | none => exact each_nil
      | some list => exact each_singleton (admits.headers cb list)

theorem Admits.each_resetWrites (admits : Admits P) (s : QuicTransportStream) (how : ℕ) :
    Each P (s.resetWrites how).2 := by
  unfold resetWrites
  split
  · exact admits.each_flush s _ _
  · exact each_nil

theorem Admits.each_resume (admits : Admits P) (s : QuicTransportStream) (frame : Frame) :
    Each P (s.resume frame).2 := by
  cases frame with
  | returns => exact each_nil
  | closeRead => exact admits.each_flush s _ _
  | closeShutdown => exact each_nil
  | resetRead how => exact admits.each_resetWrites s how
  | flush ec next => exact admits.each_flush _ _ _

theorem Admits.each_onReadable (admits : Admits P) (isOpen : s.stream = true)
    {hset : Option HeaderList} {read : LsquicRead}
    (reads : ∀ cb result, ReadOrigin s (.event (.readable hset read)) result →
      P (.invoked cb (.read result))) : Each P (s.onReadable hset read).2 := by
  unfold onReadable
  split
  · exact admits.each_tryTakeHeaders s hset
  · rename_i notTaking
    rw [Option.not_isSome_iff_eq_none] at notTaking
    cases isPending : s.readCb with
    | none => exact each_nil
    | some cb =>
      have pending : s.readCb ≠ none := by simp [isPending]
      apply ((admits.each_touch isOpen _).append (admits.each_touch isOpen _)).append
      cases read with
      | again => exact admits.each_touch isOpen _
      | data bytes => exact each_singleton (reads cb _ (.readable notTaking pending rfl))
      | reset => exact each_singleton (reads cb _ (.readable notTaking pending rfl))
      | failed => exact each_singleton (reads cb _ (.readable notTaking pending rfl))

theorem Admits.each_react (admits : Admits P) (isOpen : s.stream = true) {event : Event}
    (reads : ∀ cb result, ReadOrigin s (.event event) result → P (.invoked cb (.read result))) :
    Each P (s.react event).2 := by
  cases event with
  | readable hset read => exact admits.each_onReadable isOpen reads
  | writeable write => exact admits.each_pumpWrite _ write
  | reset how =>
    simp only [react, onReset]
    split
    · exact each_singleton (reads _ _ .reset)
    · exact admits.each_resetWrites s how
  | close =>
    simp only [react, onClose]
    cases isPending : s.readCb with
    | none => exact admits.each_flush _ _ _
    | some cb => exact each_singleton (reads cb _ (.close (by simp [isPending])))

theorem Admits.each_asyncSendHeaders (admits : Admits P) (s : QuicTransportStream)
    (headers : HeaderList) (ok : Bool) (cb : ℕ) : Each P (s.asyncSendHeaders headers ok cb).2 := by
  unfold asyncSendHeaders
  split_ifs with closed _ _
  · exact each_singleton (admits.written _ _ _)
  · exact each_singleton (admits.written _ _ _)
  · have isOpen : s.stream = true := Bool.eq_true_of_not_eq_false closed
    apply (admits.each_touch isOpen _).append
    exact (admits.each_touch isOpen _).append (each_singleton (admits.written _ _ _))
  · have isOpen : s.stream = true := Bool.eq_true_of_not_eq_false closed
    exact (admits.each_touch isOpen _).append (each_singleton (admits.written _ _ _))

theorem Admits.each_perform (admits : Admits P) {call : Call}
    (shuts : ∀ ok, call = .asyncShutdown ok → P (.lsquic s.stream .shutdown))
    (reads : ∀ cb result, ReadOrigin s (.call call) result → P (.invoked cb (.read result))) :
    Each P (s.perform call).2 := by
  have accepted : Each P [.accepted s.nextCb] := each_singleton (admits.accepted s.nextCb)
  cases call with
  | asyncReadSome size =>
    apply accepted.append
    dsimp only [asyncReadSome]
    split
    · rename_i closed
      exact each_singleton (reads _ _ (.closed closed))
    · rename_i notClosed
      apply admits.each_touch
      exact Bool.eq_true_of_not_eq_false notClosed
  | asyncWriteSome data write => exact accepted.append (admits.each_pumpWrite _ write)
  | asyncShutdown ok =>
    apply accepted.append
    apply (each_singleton (shuts ok rfl)).append
    cases ok with
    | false => exact each_nil
    | true => exact each_singleton (admits.shut _)
  | asyncTakeHeaders hset =>
    simp only [perform]
    split
    · exact each_nil
    · rename_i accepts
      rw [not_or, Bool.not_eq_false] at accepts
      apply accepted.append
      apply Each.append
      · apply admits.each_touch
        exact accepts.1
      · exact admits.each_tryTakeHeaders _ hset
  | asyncSendHeaders headers ok =>
    exact accepted.append (admits.each_asyncSendHeaders _ headers ok _)

/-- What the effects of a step are, up to reads and `async_shutdown`. -/
theorem Admits.each_step (admits : Admits P) {stimulus : Stimulus} {result : Result}
    (shuts : ∀ ok, stimulus = .call (.asyncShutdown ok) → P (.lsquic s.stream .shutdown))
    (reads : ∀ cb read, ReadOrigin s stimulus read → P (.invoked cb (.read read)))
    (taken : s.step stimulus = some result) : Each P result.2 := by
  rcases step_cases taken with ⟨call, rfl, rfl⟩ | ⟨event, rfl, isOpen, -, rfl⟩ |
    ⟨frame, stack, rfl, -, rfl⟩
  · refine admits.each_perform ?_ reads
    rintro ok rfl
    exact shuts ok rfl
  · exact admits.each_react isOpen reads
  · exact admits.each_resume _ frame

end Each

/-! ## The handle of a closed stream -/

/-- No function of lsquic is passed a null pointer. -/
def Untouched (effects : List Effect) : Prop := ∀ call, .lsquic false call ∉ effects

/-- `async_shutdown` is called on open streams only. -/
def ShutsOpen (s : QuicTransportStream) : Stimulus → Prop
  | .call (.asyncShutdown _) => s.stream = true
  | _ => True

instance (s : QuicTransportStream) : ∀ stimulus, Decidable (s.ShutsOpen stimulus)
  | .call (.asyncShutdown _) => inferInstanceAs (Decidable (s.stream = true))
  | .call (.asyncReadSome _) | .call (.asyncWriteSome _ _) | .call (.asyncTakeHeaders _)
  | .call (.asyncSendHeaders _ _) | .event _ | .ret => .isTrue trivial

theorem untouched_step {stimulus : Stimulus} {result : Result} (shutsOpen : s.ShutsOpen stimulus)
    (taken : s.step stimulus = some result) :
    Each (fun effect => ∀ call, effect ≠ .lsquic false call) result.2 := by
  have admits : Admits fun effect => ∀ call, effect ≠ .lsquic false call :=
    ⟨nofun, nofun, nofun, nofun, nofun⟩
  refine admits.each_step ?_ nofun taken
  rintro ok rfl call isNull
  have isOpen : s.stream = true := shutsOpen
  rw [isOpen] at isNull
  cases isNull

/--
However the calls of a stream, the returns of its callbacks and the events of lsquic follow
each other: as long as `async_shutdown` is called on open streams only, no function of
lsquic is passed the handle once `on_close` has cleared it.
-/
theorem closed_stream_untouched {trace : List Effect} {s : QuicTransportStream}
    (runs : Runs step ShutsOpen {} trace s) : Untouched trace := by
  have each := Runs.forall_action
    (fun shutsOpen taken => untouched_step shutsOpen taken) runs
  intro call touched
  exact each _ touched call rfl

/-- The client closes the stream under a pending read, and the read is tried again. -/
def closedWhileReading : List Stimulus :=
  [.call (.asyncReadSome 4096), .event .close, .call (.asyncReadSome 4096), .ret, .ret]

theorem closed_stream_untouched_reading :
    ∃ trace s, Runs step ShutsOpen {} trace s ∧
      .invoked 0 (.read (.error .eof)) ∈ trace ∧ .invoked 1 (.read (.error .eof)) ∈ trace ∧
      Untouched trace := by
  have reached : (run step (fun s stimulus => decide (s.ShutsOpen stimulus)) {}
      closedWhileReading).any (fun last =>
        decide (.invoked 0 (.read (.error .eof)) ∈ last.2 ∧
          .invoked 1 (.read (.error .eof)) ∈ last.2)) = true := by
    decide +kernel
  rcases exists_runs_of_run reached with ⟨trace, s, runs, first, second⟩
  exact ⟨trace, s, runs, first, second, closed_stream_untouched runs⟩

/-- A read callback that tears its relay down when the stream is closed. -/
def shutWhileClosing : List Stimulus :=
  [.call (.asyncReadSome 4096), .event .close, .call (.asyncShutdown true)]

theorem shutWhileClosing_touches :
    ∃ trace s, Runs step anyInput {} trace s ∧
      .lsquic false .shutdown ∈ trace := by
  have reached : (run step (fun _ _ => true) {} shutWhileClosing).any (fun last =>
      decide (.lsquic false .shutdown ∈ last.2)) = true := by
    decide +kernel
  exact exists_runs_any reached

end QuicTransportStream

end ReverseProxy
