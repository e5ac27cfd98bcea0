import ReverseProxy.Machine.Chunks
import ReverseProxy.Transport.QuicStream

/-!
# The write queue of a QUIC stream

`async_write_some` queues a buffer, and `pump_write` offers the first one to lsquic, which
may take any part of it.  As long as nothing fails, lsquic has been given the buffers in
order up to some offset in the first one of the queue, and the callbacks of the others have
run.  A queue that is not empty has asked lsquic to be told when it can go on.
-/

namespace ReverseProxy

open Machine Text

namespace QuicTransportStream

/-! ## What a run shows -/

/-- A step with what it did. -/
abbrev Record := Stimulus × List Effect

/-- The buffer that a call of `async_write_some` hands over, behind the number of its callback. -/
def submitted : Record → List (ℕ × Bytes)
  | (.call (.asyncWriteSome data _), .accepted cb :: _) => [(cb, data)]
  | _ => []

/-- What `lsquic_stream_write` returns in a step. -/
def Stimulus.writeResult : Stimulus → Option LsquicWrite
  | .call (.asyncWriteSome _ write) | .event (.writeable write) => some write
  | _ => none

/-- The bytes of an effect that lsquic takes if it takes so many. -/
def Effect.takes (n : ℕ) : Effect → Bytes
  | .lsquic _ (.write data) => data.take n
  | _ => []

/-- The bytes that lsquic accepts in a step. -/
def accepted (record : Record) : Bytes :=
  match record.1.writeResult with
  | some (.accepted n) => record.2.flatMap (Effect.takes n)
  | _ => []

/-- The callback that a call of `async_send_headers` hands over. -/
def headersCallback : Record → Option ℕ
  | (.call (.asyncSendHeaders _ _), .accepted cb :: _) => some cb
  | _ => none

/-- A write callback is invoked. -/
def Effect.completes : Effect → Option (ℕ × Option ErrorCode × ℕ)
  | .invoked cb (.written ec n) => some (cb, ec, n)
  | _ => none

/-- The callbacks of buffers that are invoked in a step. -/
def completed (record : Record) : List (ℕ × Option ErrorCode × ℕ) :=
  (record.2.filterMap Effect.completes).filter fun result =>
    decide (headersCallback record ≠ some result.1)

/-- lsquic has been asked to report when the stream can be written to; nothing takes that back. -/
def WantsWrite (records : List Record) : Prop :=
  ∃ record ∈ records, .lsquic true .wantwrite ∈ record.2

/-! ## Runs without failures -/

/-- What is left of the buffer that is offered next. -/
def remaining : List WriteOp → ℕ
  | [] => 0
  | op :: _ => op.data.length - op.offset

/-- lsquic takes at most what it is offered, and does not fail. -/
def WithinOffer (queue : List WriteOp) : LsquicWrite → Prop
  | .accepted n => n ≤ remaining queue
  | .reset | .failed => False

/-- No write, reset or close fails the stream, and buffers are not empty. -/
def Healthy (s : QuicTransportStream) : Stimulus → Prop
  | .call (.asyncWriteSome data write) =>
    data ≠ [] ∧ WithinOffer (s.writeQueue ++ [{ data, cb := s.nextCb }]) write
  | .event (.writeable write) => WithinOffer s.writeQueue write
  | .event (.reset _) | .event .close => False
  | _ => True

instance (queue : List WriteOp) : ∀ write, Decidable (WithinOffer queue write)
  | .accepted n => inferInstanceAs (Decidable (n ≤ remaining queue))
  | .reset | .failed => .isFalse id

instance (s : QuicTransportStream) : ∀ stimulus, Decidable (s.Healthy stimulus)
  | .call (.asyncWriteSome data write) =>
    inferInstanceAs (Decidable (data ≠ [] ∧
      WithinOffer (s.writeQueue ++ [{ data, cb := s.nextCb }]) write))
  | .event (.writeable write) => inferInstanceAs (Decidable (WithinOffer s.writeQueue write))
  | .event (.reset _) | .event .close => .isFalse id
  | .call (.asyncReadSome _) | .call (.asyncShutdown _) | .call (.asyncTakeHeaders _)
  | .call (.asyncSendHeaders _ _) | .event (.readable _ _) | .ret => .isTrue trivial

/-! ## The pump -/

section Pump

variable {s : QuicTransportStream}

theorem pumpWrite_busy (isOpen : s.stream = true) (busy : s.writing = true ∨ s.writeQueue = [])
    (write : LsquicWrite) : s.pumpWrite write = (s, []) := by
  rw [pumpWrite, if_neg (by simp [isOpen])]
  rcases busy with writing | drained
  · rw [if_pos writing]
  · split
    · rfl
    · rw [drained]

/-- lsquic takes less than it is offered. -/
theorem pumpWrite_short (isOpen : s.stream = true) (free : s.writing = false) {op : WriteOp}
    {rest : List WriteOp} (isQueue : s.writeQueue = op :: rest) {n : ℕ}
    (short : op.offset + n < op.data.length) :
    s.pumpWrite (.accepted n) =
      ({ s with writeQueue := { op with offset := op.offset + n } :: rest, writing := true },
        [.lsquic true (.write (op.data.drop op.offset)), .lsquic true .wantwrite]) := by
  rw [pumpWrite, if_neg (by simp [isOpen]), if_neg (by simp [free])]
  simp only [isQueue, touch, isOpen, behind]
  split
  · rename_i nothing
    subst nothing
    have same : s = { s with writeQueue := op :: rest } := by rw [← isQueue]
    simp [← isQueue]
  · rw [if_neg (by omega)]
    rfl

/-- lsquic takes all that is left of the buffer. -/
theorem pumpWrite_all (isOpen : s.stream = true) (free : s.writing = false) {op : WriteOp}
    {rest : List WriteOp} (isQueue : s.writeQueue = op :: rest) {n : ℕ}
    (all : op.offset + n = op.data.length) (inside : op.offset < op.data.length) :
    s.pumpWrite (.accepted n) =
      ({ s with writeQueue := rest, stack := .returns :: s.stack },
        [.lsquic true (.write (op.data.drop op.offset)),
          .invoked op.cb (.written none op.data.length)]) := by
  rw [pumpWrite, if_neg (by simp [isOpen]), if_neg (by simp [free])]
  simp only [isQueue, touch, isOpen, behind, invoke]
  rw [if_neg (by omega), if_pos (by omega), all]
  rfl

end Pump

/-! ## The queue against the buffers -/

/-- How much of the first buffer has been accepted. -/
def headOffset : List WriteOp → ℕ
  | [] => 0
  | op :: _ => op.offset

@[simp]
theorem headOffset_cons (op : WriteOp) (rest : List WriteOp) :
    headOffset (op :: rest) = op.offset := rfl

/-- The buffers that were handed over are those that are through and those in the queue. -/
structure Flows (buffers : List (ℕ × Bytes)) (results : List (ℕ × Option ErrorCode × ℕ))
    (bytes : Bytes) (s : QuicTransportStream) : Prop where
  isOpen : s.stream = true
  frames : ∀ frame ∈ s.stack, frame = .returns
  queued : ∀ op ∈ s.writeQueue, op.data ≠ []
  waiting : ∀ op ∈ s.writeQueue.tail, op.offset = 0
  progress : ∃ done, buffers = done ++ s.writeQueue.map (fun op => (op.cb, op.data)) ∧
    results = done.map (fun buffer => (buffer.1, none, buffer.2.length)) ∧
    Transferred (done.map Prod.snd) (s.writeQueue.map WriteOp.data)
      (headOffset s.writeQueue) bytes

section Flows

variable {s next : QuicTransportStream} {buffers : List (ℕ × Bytes)}
  {results : List (ℕ × Option ErrorCode × ℕ)} {bytes : Bytes} {effects : List Effect}

/-- A step that does not concern the queue. -/
theorem Flows.elsewhere (flows : Flows buffers results bytes s) (isOpen : next.stream = true)
    (frames : ∀ frame ∈ next.stack, frame = .returns) (same : next.writeQueue = s.writeQueue) :
    Flows buffers results bytes next :=
  ⟨isOpen, frames, same ▸ flows.queued, same ▸ flows.waiting, same ▸ flows.progress⟩

theorem Flows.submit (flows : Flows buffers results bytes s) {data : Bytes} (nonempty : data ≠ [])
    (cb nextCb : ℕ) :
    Flows (buffers ++ [(cb, data)]) results bytes
      { s with nextCb, writeQueue := s.writeQueue ++ [{ data, cb }] } := by
  rcases flows with ⟨isOpen, frames, queued, waiting, done, isBuffers, isResults, transferred⟩
  refine ⟨isOpen, frames, ?_, ?_, done, ?_, isResults, ?_⟩
  · simpa [or_imp, forall_and] using ⟨queued, nonempty⟩
  · cases isQueue : s.writeQueue with
    | nil => simp
    | cons op rest => simpa [isQueue, or_imp, forall_and] using waiting
  · simp [isBuffers]
  · have sameOffset : headOffset (s.writeQueue ++ [({ data, cb } : WriteOp)]) =
        headOffset s.writeQueue := by
      cases s.writeQueue <;> rfl
    rw [sameOffset, List.map_append]
    exact transferred.submit nonempty

/-- What the pump leaves behind. -/
structure Pumped (n : ℕ) (s next : QuicTransportStream) (effects : List Effect)
    (buffers : List (ℕ × Bytes)) (results : List (ℕ × Option ErrorCode × ℕ)) (bytes : Bytes) :
    Prop where
  flows : Flows buffers (results ++ effects.filterMap Effect.completes)
    (bytes ++ effects.flatMap (Effect.takes n)) next
  wants : next.writing = true ∨ next.writeQueue ≠ [] →
    .lsquic true .wantwrite ∈ effects ∨ s.writing = true ∨ s.writeQueue.tail ≠ []

theorem Flows.pump (flows : Flows buffers results bytes s) {n : ℕ} (within : n ≤ remaining s.writeQueue)
    (pumped : s.pumpWrite (.accepted n) = (next, effects)) :
    Pumped n s next effects buffers results bytes := by
  by_cases busy : s.writing = true ∨ s.writeQueue = []
  · rw [pumpWrite_busy flows.isOpen busy] at pumped
    rcases Prod.mk.inj pumped with ⟨rfl, rfl⟩
    refine ⟨by simpa using flows, ?_⟩
    intro unfinished
    rcases busy with writing | drained
    · exact .inr (.inl writing)
    · exact .inr (.inl (unfinished.resolve_right (fun left => left drained)))
  · simp only [not_or, Bool.not_eq_true] at busy
    rcases List.exists_cons_of_ne_nil busy.2 with ⟨op, rest, isQueue⟩
    rcases flows with ⟨isOpen, frames, queued, waiting, done, isBuffers, isResults, transferred⟩
    rw [isQueue] at within queued waiting isBuffers transferred
    have inside : op.offset < op.data.length := transferred.inside op.data rfl
    have atMost : n ≤ op.data.length - op.offset := within
    by_cases short : op.offset + n < op.data.length
    · rw [pumpWrite_short isOpen busy.1 isQueue short] at pumped
      rcases Prod.mk.inj pumped with ⟨rfl, rfl⟩
      refine ⟨⟨isOpen, frames, ?_, waiting, done, isBuffers, ?_, ?_⟩, fun _ => .inl (by simp)⟩
      · simpa using queued
      · exact (List.append_nil _).trans isResults
      · simpa [Effect.takes] using transferred.advance short
    · have all : op.offset + n = op.data.length := by omega
      rw [pumpWrite_all isOpen busy.1 isQueue all inside] at pumped
      rcases Prod.mk.inj pumped with ⟨rfl, rfl⟩
      refine ⟨⟨isOpen, ?_, ?_, ?_, done ++ [(op.cb, op.data)], ?_, ?_, ?_⟩, ?_⟩
      · simpa using frames
      · exact fun op opMem => queued op (List.mem_cons_of_mem _ opMem)
      · exact fun op opMem => waiting op (List.mem_of_mem_tail opMem)
      · simp [isBuffers]
      · rw [isResults, List.map_append]
        rfl
      · have nonempty : ∀ data ∈ rest.map WriteOp.data, data ≠ [] := by
          intro data dataMem
          rcases List.mem_map.mp dataMem with ⟨op, opMem, rfl⟩
          exact queued op (List.mem_cons_of_mem _ opMem)
        have through := transferred.complete all nonempty
        have fresh : headOffset rest = 0 := by
          cases rest with
          | nil => rfl
          | cons next rest => exact waiting next (by simp)
        simpa [Effect.takes, fresh] using through
      · intro unfinished
        simp only [busy.1, Bool.false_eq_true, false_or] at unfinished
        exact .inr (.inr (by simpa [isQueue] using unfinished))

end Flows

/-! ## Steps -/

/-- The state of a run without failures. -/
structure Flowing (records : List Record) (s : QuicTransportStream) : Prop where
  flows : Flows (records.flatMap submitted) (records.flatMap completed) (records.flatMap accepted) s
  wants : s.writing = true ∨ s.writeQueue ≠ [] → WantsWrite records

/-- What a method does that has nothing to do with writing, but for its own callback. -/
structure Aside (own : ℕ) (s : QuicTransportStream) (result : Result) : Prop where
  stream : result.1.stream = s.stream
  queue : result.1.writeQueue = s.writeQueue
  writing : result.1.writing = s.writing
  stack : ∀ frame ∈ result.1.stack, frame = .returns ∨ frame ∈ s.stack
  silent : ∀ effect ∈ result.2, ∀ completion, effect.completes = some completion →
    completion.1 = own

section Steps

variable {s next : QuicTransportStream} {records : List Record} {stimulus : Stimulus}
  {effects : List Effect} {own : ℕ}

theorem WantsWrite.append (wants : WantsWrite records) (record : Record) :
    WantsWrite (records ++ [record]) := by
  rcases wants with ⟨earlier, isRecord, asked⟩
  exact ⟨earlier, List.mem_append_left _ isRecord, asked⟩

theorem wantsWrite_last {record : Record} (asked : .lsquic true .wantwrite ∈ record.2) :
    WantsWrite (records ++ [record]) :=
  ⟨record, by simp, asked⟩

/-- A step that has nothing to do with writing. -/
theorem Flowing.aside {result : Result} (flowing : Flowing records s) (aside : Aside own s result)
    (noBuffer : submitted (stimulus, result.2) = []) (noBytes : accepted (stimulus, result.2) = [])
    (noResult : completed (stimulus, result.2) = []) :
    Flowing (records ++ [(stimulus, result.2)]) result.1 := by
  refine ⟨?_, ?_⟩
  · simp only [List.flatMap_append, List.flatMap_cons, List.flatMap_nil, noBuffer, noBytes,
      noResult, List.append_nil]
    apply flowing.flows.elsewhere
    · exact aside.stream.trans flowing.flows.isOpen
    · intro frame isFrame
      rcases aside.stack frame isFrame with returns | earlier
      · exact returns
      · exact flowing.flows.frames frame earlier
    · exact aside.queue
  · intro unfinished
    have before : s.writing = true ∨ s.writeQueue ≠ [] := by
      rw [← aside.writing, ← aside.queue]
      exact unfinished
    exact (flowing.wants before).append _

theorem aside_same (s : QuicTransportStream) : Aside own s (s, []) :=
  ⟨rfl, rfl, rfl, fun _ => .inr, by simp⟩

theorem Aside.behind {result : Result} (aside : Aside own s result) {effects : List Effect}
    (silent : ∀ effect ∈ effects, effect.completes = none) :
    Aside own s (behind effects result) := by
  refine ⟨aside.stream, aside.queue, aside.writing, aside.stack, ?_⟩
  intro effect isEffect completion completes
  rcases List.mem_append.mp isEffect with first | later
  · simp [silent effect first] at completes
  · exact aside.silent effect later completion completes

/-- The members that a method may have set before. -/
theorem Aside.update {result : Result} {readBuf nextCb : ℕ} {readCb headersCb shutdownCb : Option ℕ}
    (aside : Aside own { s with readBuf, readCb, headersCb, shutdownCb, nextCb } result) :
    Aside own s result :=
  ⟨aside.stream, aside.queue, aside.writing, aside.stack, aside.silent⟩

theorem aside_invoke (s : QuicTransportStream) {result : CallbackResult} {cb : ℕ}
    (isOwn : ∀ ec n, result = .written ec n → cb = own) :
    Aside own s (invoke s .returns cb result) := by
  refine ⟨rfl, rfl, rfl, by simp [invoke], ?_⟩
  intro effect isEffect completion completes
  rw [invoke, List.mem_singleton] at isEffect
  subst isEffect
  cases result with
  | written ec n =>
    rw [Effect.completes, Option.some.injEq] at completes
    rw [← completes]
    exact isOwn ec n rfl
  | _ => simp [Effect.completes] at completes

theorem aside_tryTakeHeaders (s : QuicTransportStream) (hset : Option HeaderList) :
    Aside own s (s.tryTakeHeaders hset) := by
  unfold tryTakeHeaders
  cases isPending : s.headersCb with
  | none => exact aside_same s
  | some cb =>
    dsimp only
    split
    · exact aside_same s
    · apply Aside.behind
      · cases hset with
        | none => exact aside_same s
        | some list => exact (aside_invoke _ (by simp)).update
      · simp [touch, Effect.completes]

theorem aside_onReadable (s : QuicTransportStream) (hset : Option HeaderList) (read : LsquicRead) :
    Aside own s (s.onReadable hset read) := by
  unfold onReadable
  split
  · exact aside_tryTakeHeaders s hset
  · cases isPending : s.readCb with
    | none => exact aside_same s
    | some cb =>
      apply Aside.behind
      · cases read with
        | again =>
          have asks : Aside own s (QuicTransportStream.behind [s.touch (.wantread true)] (s, [])) :=
            (aside_same s).behind (by simp [touch, Effect.completes])
          exact asks
        | data bytes => exact (aside_invoke _ (by simp)).update
        | reset => exact (aside_invoke _ (by simp)).update
        | failed => exact (aside_invoke _ (by simp)).update
      · simp [touch, Effect.completes]

theorem aside_asyncSendHeaders (s : QuicTransportStream) (headers : HeaderList) (ok : Bool)
    (cb : ℕ) : Aside cb s (s.asyncSendHeaders headers ok cb) := by
  unfold asyncSendHeaders
  split
  · exact aside_invoke s (by simp)
  · split
    · exact aside_invoke s (by simp)
    · apply Aside.behind
      · cases ok with
        | false => exact aside_invoke s (by simp)
        | true =>
          apply Aside.behind
          · exact aside_invoke s (by simp)
          · simp [touch, Effect.completes]
      · simp [touch, Effect.completes]

/-- Only the callback of a header block can be invoked aside from writing. -/
theorem completed_eq_nil {record : Record}
    (silent : ∀ effect ∈ record.2, ∀ completion, effect.completes = some completion →
      headersCallback record = some completion.1) : completed record = [] := by
  rw [completed, List.filter_eq_nil_iff]
  intro completion isCompletion
  rcases List.mem_filterMap.mp isCompletion with ⟨effect, isEffect, completes⟩
  simp [silent effect isEffect completion completes]

/-- A method without a write callback of its own completes nothing. -/
theorem silent_of_aside {result : Result} (aside : ∀ own, Aside own s result) :
    ∀ effect ∈ result.2, effect.completes = none := by
  intro effect isEffect
  cases completes : effect.completes with
  | none => rfl
  | some completion =>
    have isOwn := (aside (completion.1 + 1)).silent effect isEffect completion completes
    omega

theorem Flowing.quiet {result : Result} (flowing : Flowing records s)
    (aside : ∀ own, Aside own s result) (noBuffer : submitted (stimulus, result.2) = [])
    (noBytes : accepted (stimulus, result.2) = []) :
    Flowing (records ++ [(stimulus, result.2)]) result.1 := by
  apply flowing.aside (aside 0) noBuffer noBytes
  apply completed_eq_nil
  intro effect isEffect completion completes
  simp [silent_of_aside aside effect isEffect] at completes

/-- A step that hands over buffers and then pumps. -/
theorem Flowing.pump {n : ℕ} (state : QuicTransportStream) (earlier : List Effect)
    (result : stimulus.writeResult = some (.accepted n))
    (noHeaders : headersCallback (stimulus, earlier ++ effects) = none)
    (silent : ∀ effect ∈ earlier, effect.completes = none ∧ effect.takes n = [])
    (flows : Flows (records.flatMap submitted ++ submitted (stimulus, earlier ++ effects))
      (records.flatMap completed) (records.flatMap accepted) state)
    (within : n ≤ remaining state.writeQueue)
    (wants : state.writing = true ∨ state.writeQueue.tail ≠ [] → WantsWrite records)
    (pumped : state.pumpWrite (.accepted n) = (next, effects)) :
    Flowing (records ++ [(stimulus, earlier ++ effects)]) next := by
  have isPumped := flows.pump within pumped
  have sameResults : completed (stimulus, earlier ++ effects) =
      effects.filterMap Effect.completes := by
    have nothing : earlier.filterMap Effect.completes = [] := by
      rw [List.filterMap_eq_nil_iff]
      exact fun effect isEffect => (silent effect isEffect).1
    simp [completed, noHeaders, nothing]
  have sameBytes : accepted (stimulus, earlier ++ effects) =
      effects.flatMap (Effect.takes n) := by
    have nothing : earlier.flatMap (Effect.takes n) = [] := by
      rw [List.flatMap_eq_nil_iff]
      exact fun effect isEffect => (silent effect isEffect).2
    simp [accepted, result, nothing]
  refine ⟨?_, ?_⟩
  · simp only [List.flatMap_append, List.flatMap_cons, List.flatMap_nil, List.append_nil,
      sameResults, sameBytes]
    exact isPumped.flows
  · intro unfinished
    rcases isPumped.wants unfinished with asked | before
    · exact wantsWrite_last (List.mem_append_right _ asked)
    · exact (wants before).append _

theorem Flowing.asyncWriteSome (flowing : Flowing records s) {data : Bytes} {write : LsquicWrite}
    (healthy : s.Healthy (.call (.asyncWriteSome data write))) :
    Flowing (records ++ [(.call (.asyncWriteSome data write),
      (s.perform (.asyncWriteSome data write)).2)]) (s.perform (.asyncWriteSome data write)).1 := by
  rcases healthy with ⟨nonempty, within⟩
  cases write with
  | accepted n =>
    apply Flowing.pump _ [.accepted s.nextCb] rfl rfl
    · simp [Effect.completes, Effect.takes]
    · exact flowing.flows.submit nonempty s.nextCb (s.nextCb + 1)
    · exact within
    · rintro (writing | more)
      · exact flowing.wants (.inl writing)
      · apply flowing.wants
        right
        rintro drained
        simp [drained] at more
    · rfl
  | reset => exact within.elim
  | failed => exact within.elim

theorem aside_accept {method : QuicTransportStream → ℕ → Result}
    (aside : ∀ s cb, Aside own s (method s cb)) : Aside own s (s.accept method) := by
  apply Aside.behind
  · exact (aside { s with nextCb := s.nextCb + 1 } s.nextCb).update
  · simp [Effect.completes]

theorem Flowing.perform (flowing : Flowing records s) {call : Call}
    (healthy : s.Healthy (.call call)) :
    Flowing (records ++ [(.call call, (s.perform call).2)]) (s.perform call).1 := by
  cases call with
  | asyncWriteSome data write => exact flowing.asyncWriteSome healthy
  | asyncReadSome size =>
    refine flowing.quiet (fun own => ?_) rfl rfl
    rw [QuicTransportStream.perform]
    apply aside_accept
    intro s cb
    rw [QuicTransportStream.asyncReadSome]
    split
    · exact aside_invoke s (by simp)
    · have asks : Aside own { s with readBuf := size, readCb := some cb }
          (behind [s.touch (.wantread true)] ({ s with readBuf := size, readCb := some cb }, [])) :=
        (aside_same _).behind (by simp [touch, Effect.completes])
      exact asks.update
  | asyncShutdown ok =>
    refine flowing.quiet (fun own => ?_) rfl rfl
    rw [QuicTransportStream.perform]
    apply aside_accept
    intro s cb
    apply Aside.behind
    · cases ok with
      | false => exact Aside.update (aside_same _)
      | true => exact (aside_invoke _ (by simp)).update
    · simp [touch, Effect.completes]
  | asyncTakeHeaders hset =>
    refine flowing.quiet (fun own => ?_) ?_ ?_
    · rw [QuicTransportStream.perform]
      split
      · exact aside_same s
      · apply aside_accept
        intro s cb
        apply Aside.behind
        · exact (aside_tryTakeHeaders _ hset).update
        · simp [touch, Effect.completes]
    · rfl
    · rfl
  | asyncSendHeaders headers ok =>
    have aside : Aside s.nextCb s (s.perform (.asyncSendHeaders headers ok)) := by
      apply Aside.behind
      · exact (aside_asyncSendHeaders _ headers ok s.nextCb).update
      · simp [Effect.completes]
    refine flowing.aside aside rfl rfl ?_
    apply completed_eq_nil
    intro effect isEffect completion completes
    rw [aside.silent effect isEffect completion completes]
    rfl

theorem Flowing.react (flowing : Flowing records s) {event : Event}
    (healthy : s.Healthy (.event event)) :
    Flowing (records ++ [(.event event, (s.react event).2)]) (s.react event).1 := by
  cases event with
  | readable hset read => exact flowing.quiet (fun own => aside_onReadable s hset read) rfl rfl
  | writeable write =>
    cases write with
    | accepted n =>
      apply Flowing.pump { s with writing := false } [] rfl rfl
      · simp
      · have waits : Flows _ _ _ { s with writing := false } :=
          flowing.flows.elsewhere flowing.flows.isOpen flowing.flows.frames rfl
        simpa [submitted] using waits
      · exact healthy
      · rintro (writing | more)
        · simp at writing
        · apply flowing.wants
          right
          rintro drained
          simp [drained] at more
      · rfl
    | reset => exact healthy.elim
    | failed => exact healthy.elim
  | reset how => exact healthy.elim
  | close => exact healthy.elim

theorem Flowing.step (flowing : Flowing records s) (healthy : s.Healthy stimulus)
    (taken : s.step stimulus = some (next, effects)) :
    Flowing (records ++ [(stimulus, effects)]) next := by
  rcases step_cases taken with ⟨call, rfl, isResult⟩ | ⟨event, rfl, -, -, isResult⟩ |
    ⟨frame, stack, rfl, isStack, isResult⟩
  · have performed := flowing.perform healthy
    rwa [← isResult] at performed
  · have reacted := flowing.react healthy
    rwa [← isResult] at reacted
  · have returns : frame = .returns := flowing.flows.frames frame (by simp [isStack])
    rw [returns] at isResult
    rcases Prod.mk.inj isResult with ⟨rfl, rfl⟩
    have aside : ∀ own, Aside own s ({ s with stack }, []) := by
      refine fun own => ⟨rfl, rfl, rfl, ?_, by simp⟩
      intro frame isFrame
      exact .inr (by simp [isStack, isFrame])
    exact flowing.quiet aside rfl rfl

end Steps

/-! ## Whole runs -/

section Runs

variable {records : List Record} {s : QuicTransportStream}

theorem flowing_of_runs (runs : Runs (recorded step) Healthy {} records s) : Flowing records s := by
  apply Runs.invariant ?_ ?_ runs
  · refine ⟨⟨rfl, by simp, by simp, by simp, [], rfl, rfl, Transferred.start⟩, ?_⟩
    simp
  · intro records s stimulus next added flowing healthy recorded
    rcases recorded_eq_some_iff.mp recorded with ⟨effects, taken, rfl⟩
    exact flowing.step healthy taken

theorem Flowing.transferred (flowing : Flowing records s) :
    ∃ done, records.flatMap submitted = done ++ s.writeQueue.map (fun op => (op.cb, op.data)) ∧
      records.flatMap completed = done.map (fun buffer => (buffer.1, none, buffer.2.length)) ∧
      (records.flatMap submitted).map Prod.snd =
        done.map Prod.snd ++ s.writeQueue.map WriteOp.data ∧
      Transferred (done.map Prod.snd) (s.writeQueue.map WriteOp.data)
        (headOffset s.writeQueue) (records.flatMap accepted) := by
  rcases flowing.flows.progress with ⟨done, isBuffers, isResults, transferred⟩
  refine ⟨done, isBuffers, isResults, ?_, transferred⟩
  rw [isBuffers, List.map_append, List.map_map]
  rfl

/-- lsquic is given the buffers in call order. -/
theorem Flowing.accepted_isPrefix (flowing : Flowing records s) :
    records.flatMap accepted <+: ((records.flatMap submitted).map Prod.snd).flatten := by
  rcases flowing.transferred with ⟨done, -, -, isData, transferred⟩
  rw [isData]
  exact transferred.isPrefix

/--
The write queue is exact and never stalls: as long as no write, reset or close fails the
stream, lsquic has accepted a list-prefix of the buffers in call order, the callbacks of the
first buffers have been invoked in order with their full sizes, namely of those whose last
byte has been accepted, and lsquic has been asked to report when it can go on if the queue
is not empty.
-/
theorem write_queue_exact
    (runs : Runs (recorded step) Healthy {} records s) :
    records.flatMap accepted <+: (records.flatMap submitted).flatMap Prod.snd ∧
    (∃ through ≤ (records.flatMap submitted).length,
      records.flatMap completed = ((records.flatMap submitted).take through).map
        (fun buffer => (buffer.1, none, buffer.2.length)) ∧
      ∀ k ≤ (records.flatMap submitted).length, k ≤ through ↔
        (((records.flatMap submitted).take k).flatMap Prod.snd).length ≤
          (records.flatMap accepted).length) ∧
    (s.writeQueue ≠ [] → WantsWrite records) := by
  have flowing := flowing_of_runs runs
  rcases flowing.transferred with ⟨done, isBuffers, isResults, isData, transferred⟩
  refine ⟨?_, ⟨done.length, ?_, ?_, ?_⟩, ?_⟩
  · rw [List.flatMap_def (f := Prod.snd)]
    exact flowing.accepted_isPrefix
  · simp [isBuffers]
  · rw [isResults, isBuffers, List.take_left]
  · intro k among
    have among' : k ≤ (done.map Prod.snd ++ s.writeQueue.map WriteOp.data).length := by
      simpa [isBuffers] using among
    rw [← List.length_map (f := Prod.snd), transferred.le_done_iff among', ← isData,
      ← List.map_take, List.flatMap_def (f := Prod.snd)]
  · exact fun left => flowing.wants (.inr left)

/-- A buffer is accepted in two parts, and its callback writes another one. -/
def splitWrites : List Stimulus :=
  [.call (.asyncWriteSome (ascii "first") (.accepted 2)), .event (.writeable (.accepted 3)),
    .call (.asyncWriteSome (ascii "second") (.accepted 0)), .ret, .event (.writeable (.accepted 4))]

theorem write_queue_exact_splitWrites :
    ∃ records s, Runs (recorded step) Healthy {} records s ∧
      records.flatMap accepted = ascii "firstseco" ∧ s.writeQueue ≠ [] ∧
      records.flatMap accepted <+: (records.flatMap submitted).flatMap Prod.snd ∧
      WantsWrite records := by
  have reached : (run (recorded step) (fun s stimulus => decide (s.Healthy stimulus))
      {} splitWrites).any (fun last => decide (last.2.flatMap accepted = ascii "firstseco" ∧
        last.1.writeQueue ≠ [])) = true := by
    decide +kernel
  rcases exists_runs_of_run reached with ⟨records, s, runs, bytes, unfinished⟩
  rcases write_queue_exact runs with ⟨inOrder, -, wants⟩
  exact ⟨records, s, runs, bytes, unfinished, inOrder, wants unfinished⟩

end Runs

end QuicTransportStream

end ReverseProxy
