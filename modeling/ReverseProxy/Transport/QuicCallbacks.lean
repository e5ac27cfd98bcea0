import ReverseProxy.Machine.Ledger
import ReverseProxy.Transport.QuicStream

/-!
# Every callback of a QUIC stream is invoked once

Callbacks are neither lost nor invoked twice as long as four situations do not arise: a
header take is pending when the stream is closed, a shutdown is requested while one is
pending or after the stream has been closed, and the callback of a write that a loop is
completing writes to the stream again.  The last one invokes the callback twice: the write
is taken from the queue only after its callback has returned.

The account that is kept along a run: what has been accepted has been invoked or is
pending, each callback once.  A write whose callback a loop has invoked is still in the
queue but not pending.
-/

namespace ReverseProxy

open Machine Text

namespace QuicTransportStream

/-- The frame of a flush loop. -/
def Frame.isFlush : Frame → Bool
  | .flush _ _ => true
  | _ => false

/-- A loop over the queued writes has invoked the callback of the first. -/
def flushing (s : QuicTransportStream) : Bool := s.stack.any Frame.isFlush

/-- The queued writes whose callbacks are still to be invoked. -/
def unspent (stack : List Frame) (queue : List WriteOp) : List WriteOp :=
  if stack.any Frame.isFlush then queue.tail else queue

/-- The callbacks that the stream has accepted and not invoked. -/
def pending (s : QuicTransportStream) : List ℕ :=
  s.readCb.toList ++ s.headersCb.toList ++ s.shutdownCb.toList ++
    (unspent s.stack s.writeQueue).map WriteOp.cb

/-- The callbacks that were taken. -/
def acceptedIn (effects : List Effect) : List ℕ :=
  effects.filterMap fun
    | .accepted cb => some cb
    | _ => none

/-- The callbacks that were invoked. -/
def invokedIn (effects : List Effect) : List ℕ :=
  effects.filterMap fun
    | .invoked cb _ => some cb
    | _ => none

/-- The situations in which no callback is lost or invoked twice. -/
def Disciplined (s : QuicTransportStream) : Stimulus → Prop
  | .call (.asyncReadSome _) => s.readCb = none
  | .call (.asyncWriteSome _ _) => s.flushing = true → s.stream = true ∧ s.writing = true
  | .call (.asyncShutdown _) => s.stream = true ∧ s.shutdownCb = none
  | .event .close => s.headersCb = none
  | _ => True

instance (s : QuicTransportStream) : ∀ stimulus, Decidable (s.Disciplined stimulus)
  | .call (.asyncReadSome _) => inferInstanceAs (Decidable (s.readCb = none))
  | .call (.asyncWriteSome _ _) =>
    inferInstanceAs (Decidable (s.flushing = true → s.stream = true ∧ s.writing = true))
  | .call (.asyncShutdown _) => inferInstanceAs (Decidable (s.stream = true ∧ s.shutdownCb = none))
  | .event .close => inferInstanceAs (Decidable (s.headersCb = none))
  | .call (.asyncTakeHeaders _) | .call (.asyncSendHeaders _ _) | .event (.readable _ _)
  | .event (.writeable _) | .event (.reset _) | .ret => .isTrue trivial

/-! ## The stack -/

/-- Frames of methods that may be called from a callback. -/
def Frame.nested : Frame → Bool
  | .returns | .flush _ .pump => true
  | _ => false

/-- Only the outermost frame can be of an event. -/
inductive Layered : List Frame → Prop where
  | nil : Layered []
  | bottom (frame : Frame) : Layered [frame]
  | nested {frame : Frame} {stack : List Frame} :
      frame.nested = true → Layered stack → Layered (frame :: stack)

variable {frame : Frame} {stack : List Frame}

theorem Layered.tail (layered : Layered (frame :: stack)) : Layered stack := by
  cases layered with
  | bottom => exact .nil
  | nested _ layered => exact layered

theorem Layered.eq_nil (layered : Layered (frame :: stack)) (outermost : frame.nested = false) :
    stack = [] := by
  cases layered with
  | bottom => rfl
  | nested isNested _ => simp [outermost] at isNested

/-- Frames that will complete a pending shutdown. -/
def Frame.completesShutdown : Frame → Bool
  | .closeRead | .flush _ .close => true
  | _ => false

/-- Frames that will complete all queued writes. -/
def Frame.drains : Frame → Bool
  | .closeRead | .flush _ _ => true
  | _ => false

/-- Once the stream is closed, what is pending is left to the running methods. -/
structure Closing (s : QuicTransportStream) : Prop where
  readCb : s.readCb = none
  headersCb : s.headersCb = none
  shutdownCb : s.shutdownCb = none ∨ s.stack.any Frame.completesShutdown = true
  writes : unspent s.stack s.writeQueue = [] ∨ s.stack.any Frame.drains = true

/-- The shape of the stack. -/
structure Shape (s : QuicTransportStream) : Prop where
  layered : Layered s.stack
  oneLoop : s.stack.countP Frame.isFlush ≤ 1
  queued : s.flushing = true → s.writeQueue ≠ []
  closing : s.stream = false → Closing s

variable {s : QuicTransportStream}

theorem flushing_eq_false_iff : s.flushing = false ↔ s.stack.countP Frame.isFlush = 0 := by
  rw [flushing, List.countP_eq_zero, List.any_eq_false]

/-! ## One step keeps the account -/

/-- What was owed has been invoked or is pending, and nothing new has been accepted. -/
structure Settles (result : Result) (owed : List ℕ) (nextCb : ℕ) : Prop where
  account : Balanced result.1.pending (invokedIn result.2) owed
  accepts : acceptedIn result.2 = []
  numbered : result.1.nextCb = nextCb

variable {nextCb : ℕ} {owed : List ℕ}

theorem settles_rest (same : s.pending = owed) (numbered : s.nextCb = nextCb) :
    Settles (s, []) owed nextCb := by
  refine ⟨?_, rfl, numbered⟩
  intro cb
  rw [same]
  rfl

theorem Settles.behind_touch {result : Result} (settles : Settles result owed nextCb)
    (s : QuicTransportStream) (call : LsquicCall) :
    Settles (behind [s.touch call] result) owed nextCb :=
  ⟨settles.account, settles.accepts, settles.numbered⟩

theorem unspent_cons (single : frame.isFlush = false) (stack : List Frame) (queue : List WriteOp) :
    unspent (frame :: stack) queue = unspent stack queue := by
  simp only [unspent, List.any_cons, single, Bool.false_or]

theorem unspent_of_idle (idle : s.flushing = false) (queue : List WriteOp) :
    unspent s.stack queue = queue := by
  rw [flushing] at idle
  simp [unspent, idle]

theorem settles_invoke {cb : ℕ} (single : frame.isFlush = false)
    (owes : ∀ other, s.pending.count other + [cb].count other = owed.count other)
    (numbered : s.nextCb = nextCb) (result : CallbackResult) :
    Settles (s.invoke frame cb result) owed nextCb := by
  refine ⟨?_, rfl, numbered⟩
  intro other
  have same : (s.invoke frame cb result).1.pending = s.pending := by
    simp only [pending, invoke, unspent_cons single]
  rw [same]
  exact owes other

theorem settles_afterFlush (s : QuicTransportStream) (next : FlushThen) :
    Settles (s.afterFlush next) s.pending s.nextCb := by
  cases next with
  | pump => exact settles_rest rfl rfl
  | reset => exact settles_rest rfl rfl
  | close =>
    simp only [afterFlush]
    cases isPending : s.shutdownCb with
    | none =>
      refine settles_rest ?_ rfl
      simp only [pending, isPending]
    | some cb =>
      refine settles_invoke rfl ?_ rfl _
      intro other
      simp only [pending, isPending, List.count_append, Option.toList_some,
        Option.toList_none, List.count_nil]
      omega

theorem settles_flush (idle : s.flushing = false) (ec : ErrorCode) (next : FlushThen) :
    Settles (s.flush ec next) s.pending s.nextCb := by
  cases isQueue : s.writeQueue with
  | nil =>
    rw [flush_nil isQueue]
    exact settles_afterFlush s next
  | cons op rest =>
    rw [flush_cons isQueue]
    have spent : unspent (.flush ec next :: s.stack) (op :: rest) = rest := rfl
    refine ⟨?_, rfl, rfl⟩
    intro cb
    simp only [pending, invoke, spent, unspent_of_idle idle, isQueue, invokedIn,
      List.filterMap_cons, List.filterMap_nil, List.map_cons, List.count_append,
      List.count_cons, List.count_nil]
    omega

theorem settles_resetWrites (idle : s.flushing = false) (how : ℕ) :
    Settles (s.resetWrites how) s.pending s.nextCb := by
  unfold resetWrites
  split
  · exact settles_flush idle _ _
  · exact settles_rest rfl rfl

theorem settles_pumpWrite (write : LsquicWrite)
    (waits : s.flushing = true → s.stream = true ∧ s.writing = true) :
    Settles (s.pumpWrite write) s.pending s.nextCb := by
  by_cases idle : s.flushing = false
  · unfold pumpWrite
    split
    · exact settles_flush idle _ _
    · split
      · exact settles_rest rfl rfl
      · cases isQueue : s.writeQueue with
        | nil => exact settles_rest rfl rfl
        | cons op rest =>
          have completes : ∀ other,
              ({ s with writeQueue := rest } : QuicTransportStream).pending.count other +
                [op.cb].count other = s.pending.count other := by
            intro other
            simp only [pending, unspent_of_idle idle, isQueue, List.map_cons,
              List.count_append, List.count_cons, List.count_nil]
            omega
          apply Settles.behind_touch
          cases write with
          | accepted n =>
            dsimp only
            split_ifs
            · exact (settles_rest (by simp only [pending, isQueue]) rfl).behind_touch s _
            · exact settles_invoke rfl completes rfl _
            · refine (settles_rest ?_ rfl).behind_touch s _
              simp only [pending, unspent_of_idle idle, isQueue, List.map_cons]
          | reset => exact settles_invoke rfl completes rfl _
          | failed => exact settles_invoke rfl completes rfl _
  · rcases waits (Bool.eq_true_of_not_eq_false idle) with ⟨isOpen, isWriting⟩
    rw [pumpWrite, if_neg (by simp [isOpen]), if_pos isWriting]
    exact settles_rest rfl rfl

theorem settles_tryTakeHeaders (s : QuicTransportStream) (hset : Option HeaderList) :
    Settles (s.tryTakeHeaders hset) s.pending s.nextCb := by
  unfold tryTakeHeaders
  cases isPending : s.headersCb with
  | none => exact settles_rest rfl rfl
  | some cb =>
    dsimp only
    split
    · exact settles_rest rfl rfl
    · apply Settles.behind_touch
      cases hset with
      | none => exact settles_rest rfl rfl
      | some list =>
        refine settles_invoke rfl ?_ rfl _
        intro other
        simp only [pending, isPending, List.count_append, Option.toList_some,
          Option.toList_none, List.count_nil]
        omega

theorem settles_read {s s' : QuicTransportStream} {cb : ℕ} (isPending : s.readCb = some cb)
    (completed : s'.pending = pending { s with readCb := none }) (numbered : s'.nextCb = s.nextCb)
    (single : frame.isFlush = false) (result : CallbackResult) :
    Settles (s'.invoke frame cb result) s.pending s.nextCb := by
  refine settles_invoke single ?_ numbered _
  intro other
  rw [completed]
  simp only [pending, isPending, List.count_append, Option.toList_some, Option.toList_none,
    List.count_nil]
  omega

theorem settles_react (idle : s.stack = []) (event : Event) :
    Settles (s.react event) s.pending s.nextCb := by
  have isIdle : s.flushing = false := by
    rw [flushing, idle]
    rfl
  cases event with
  | readable hset read =>
    simp only [react, onReadable]
    split
    · exact settles_tryTakeHeaders s hset
    · cases isPending : s.readCb with
      | none => exact settles_rest rfl rfl
      | some cb =>
        refine Settles.behind_touch (Settles.behind_touch ?_ s (.wantread false)) s _
        cases read with
        | again => exact (settles_rest rfl rfl).behind_touch s _
        | data bytes => exact settles_read isPending rfl rfl rfl _
        | reset => exact settles_read isPending rfl rfl rfl _
        | failed => exact settles_read isPending rfl rfl rfl _
  | writeable write =>
    refine settles_pumpWrite (s := { s with writing := false }) write ?_
    intro flushes
    exact absurd (isIdle.symm.trans flushes) Bool.false_ne_true
  | reset how =>
    simp only [react, onReset]
    split
    · rename_i cb found
      split_ifs at found
      exact settles_read found rfl rfl rfl _
    · exact settles_resetWrites isIdle how
  | close =>
    simp only [react, onClose]
    split
    · rename_i cb isPending
      have single : Frame.isFlush .closeRead = false := rfl
      apply settles_read isPending
      · rfl
      · rfl
      · exact single
    · exact settles_flush (s := { s with stream := false }) isIdle _ _

theorem settles_resume (shape : Shape s) (isStack : s.stack = frame :: stack) :
    Settles (resume { s with stack } frame) s.pending s.nextCb := by
  have layered := isStack ▸ shape.layered
  have same : frame.isFlush = false → pending { s with stack } = s.pending := by
    intro single
    simp only [pending, isStack, unspent_cons single]
  cases frame with
  | returns => exact settles_rest (same rfl) rfl
  | closeShutdown => exact settles_rest (same rfl) rfl
  | closeRead =>
    rw [← same rfl]
    apply settles_flush
    rw [layered.eq_nil rfl]
    rfl
  | resetRead how =>
    rw [← same rfl]
    apply settles_resetWrites
    rw [layered.eq_nil rfl]
    rfl
  | flush ec next =>
    have oneLoop := shape.oneLoop
    have idle : flushing { s with stack } = false := by
      rw [flushing_eq_false_iff]
      rw [isStack, List.countP_cons_of_pos rfl] at oneLoop
      exact Nat.le_zero.mp (Nat.le_of_succ_le_succ oneLoop)
    have popped : pending { s with stack, writeQueue := s.writeQueue.tail } = s.pending := by
      have spent : unspent (.flush ec next :: stack) s.writeQueue = s.writeQueue.tail := rfl
      simp only [pending, isStack, spent, unspent_of_idle idle]
    rw [← popped]
    exact settles_flush (s := { s with stack, writeQueue := s.writeQueue.tail }) idle ec next

/-! ## One step keeps the shape of the stack -/

theorem Shape.update {s s' : QuicTransportStream} (shape : Shape s) (sameStack : s'.stack = s.stack)
    (isOpen : s'.stream = true) (queued : s.flushing = true → s'.writeQueue ≠ []) : Shape s' := by
  refine ⟨sameStack ▸ shape.layered, sameStack ▸ shape.oneLoop, ?_, ?_⟩
  · rw [flushing, sameStack, ← flushing]
    exact queued
  · intro closed
    rw [isOpen] at closed
    cases closed

theorem Closing.push (closing : Closing s) (single : frame.isFlush = false) :
    Closing { s with stack := frame :: s.stack } := by
  refine ⟨closing.readCb, closing.headersCb, ?_, ?_⟩
  · apply closing.shutdownCb.imp_right
    intro completes
    rw [List.any_cons, completes, Bool.or_true]
  · rw [unspent_cons single]
    apply closing.writes.imp_right
    intro drains
    rw [List.any_cons, drains, Bool.or_true]

theorem Shape.push (shape : Shape s) (single : frame.isFlush = false)
    (fits : frame.nested = true ∨ s.stack = []) : Shape { s with stack := frame :: s.stack } := by
  refine ⟨?_, ?_, ?_, ?_⟩
  · rcases fits with isNested | idle
    · exact .nested isNested shape.layered
    · rw [idle]
      exact .bottom frame
  · rw [List.countP_cons_of_neg (by simp [single])]
    exact shape.oneLoop
  · rw [flushing, List.any_cons, single, Bool.false_or]
    exact shape.queued
  · intro closed
    exact (shape.closing closed).push single

/-- Where a loop over the queued writes may start. -/
structure FlushReady (s : QuicTransportStream) (next : FlushThen) : Prop where
  layered : Layered s.stack
  idle : s.flushing = false
  outermost : next = .pump ∨ s.stack = []
  readCb : s.stream = false → s.readCb = none
  headersCb : s.stream = false → s.headersCb = none
  shutdownCb : s.stream = false →
    s.shutdownCb = none ∨ next = .close ∨ s.stack.any Frame.completesShutdown = true

/-- Behind such a loop nothing is queued. -/
theorem FlushReady.shape_drained {next : FlushThen} (ready : FlushReady s next)
    (drained : s.writeQueue = []) (shutdownCb : Option ℕ) (writing : Bool)
    (completes : s.stream = false →
      shutdownCb = none ∨ s.stack.any Frame.completesShutdown = true) :
    Shape { s with shutdownCb, writing } := by
  refine ⟨ready.layered, ?_, ?_, ?_⟩
  · exact (flushing_eq_false_iff.mp ready.idle).trans_le (Nat.zero_le 1)
  · intro flushes
    exact absurd (ready.idle.symm.trans flushes) Bool.false_ne_true
  · intro closed
    refine ⟨ready.readCb closed, ready.headersCb closed, completes closed, Or.inl ?_⟩
    exact (unspent_of_idle ready.idle _).trans drained

theorem FlushReady.shape_afterFlush {next : FlushThen} (ready : FlushReady s next)
    (drained : s.writeQueue = []) : Shape (s.afterFlush next).1 := by
  cases next with
  | pump =>
    apply ready.shape_drained drained
    intro closed
    exact (ready.shutdownCb closed).imp_right (fun later => later.resolve_left nofun)
  | reset =>
    apply ready.shape_drained drained
    intro closed
    exact (ready.shutdownCb closed).imp_right (fun later => later.resolve_left nofun)
  | close =>
    rw [afterFlush]
    cases isPending : s.shutdownCb with
    | none => exact ready.shape_drained drained none false (fun _ => Or.inl rfl)
    | some cb =>
      have shape := ready.shape_drained drained none s.writing (fun _ => Or.inl rfl)
      exact shape.push rfl (Or.inr (ready.outermost.resolve_left nofun))

theorem FlushReady.shape_flush {next : FlushThen} (ready : FlushReady s next) (ec : ErrorCode) :
    Shape (s.flush ec next).1 := by
  cases isQueue : s.writeQueue with
  | nil =>
    rw [flush_nil isQueue]
    exact ready.shape_afterFlush isQueue
  | cons op rest =>
    rw [flush_cons isQueue]
    refine ⟨?_, ?_, ?_, ?_⟩
    · rcases ready.outermost with rfl | idle
      · exact .nested rfl ready.layered
      · rw [invoke, idle]
        exact .bottom _
    · rw [invoke, List.countP_cons_of_pos rfl, flushing_eq_false_iff.mp ready.idle]
    · intro _
      rw [invoke, isQueue]
      exact List.cons_ne_nil op rest
    · intro closed
      refine ⟨ready.readCb closed, ready.headersCb closed, ?_, Or.inr rfl⟩
      rcases ready.shutdownCb closed with none | rfl | completes
      · exact Or.inl none
      · exact Or.inr rfl
      · refine Or.inr ?_
        rw [invoke, List.any_cons, completes, Bool.or_true]

theorem FlushReady.shape_resetWrites (ready : FlushReady s .reset) (shape : Shape s) (how : ℕ) :
    Shape (s.resetWrites how).1 := by
  unfold resetWrites
  split
  · exact ready.shape_flush _
  · exact shape

theorem shape_pumpWrite (write : LsquicWrite) (shape : s.stream = true → Shape s)
    (ready : s.stream = false → FlushReady s .pump)
    (waits : s.flushing = true → s.stream = true ∧ s.writing = true) :
    Shape (s.pumpWrite write).1 := by
  unfold pumpWrite
  split
  · rename_i closed
    exact (ready closed).shape_flush _
  · rename_i notClosed
    have isOpen : s.stream = true := Bool.eq_true_of_not_eq_false notClosed
    split
    · exact shape isOpen
    · rename_i notWriting
      cases isQueue : s.writeQueue with
      | nil => exact shape isOpen
      | cons op rest =>
        have notFlushing : s.flushing = true → ∀ queue : List WriteOp, queue ≠ [] := by
          intro flushes
          exact absurd (waits flushes).2 notWriting
        cases write with
        | accepted n =>
          simp only [behind]
          split_ifs
          · exact (shape isOpen).update rfl isOpen (fun flushes => notFlushing flushes _)
          · refine Shape.push ?_ rfl (Or.inl rfl)
            exact (shape isOpen).update rfl isOpen (fun flushes => notFlushing flushes _)
          · exact (shape isOpen).update rfl isOpen (fun flushes => notFlushing flushes _)
        | reset =>
          refine Shape.push ?_ rfl (Or.inl rfl)
          exact (shape isOpen).update rfl isOpen (fun flushes => notFlushing flushes _)
        | failed =>
          refine Shape.push ?_ rfl (Or.inl rfl)
          exact (shape isOpen).update rfl isOpen (fun flushes => notFlushing flushes _)

theorem Shape.tryTakeHeaders (shape : Shape s) (hset : Option HeaderList) :
    Shape (s.tryTakeHeaders hset).1 := by
  unfold QuicTransportStream.tryTakeHeaders
  cases s.headersCb with
  | none => exact shape
  | some cb =>
    dsimp only
    split
    · exact shape
    · rename_i notClosed
      cases hset with
      | none => exact shape
      | some list =>
        refine Shape.push ?_ rfl (Or.inl rfl)
        exact shape.update rfl (Bool.eq_true_of_not_eq_false notClosed) shape.queued

theorem Shape.react (shape : Shape s) (isOpen : s.stream = true) (idle : s.stack = [])
    {event : Event} (disciplined : s.Disciplined (.event event)) : Shape (s.react event).1 := by
  have isIdle : s.flushing = false := by
    rw [flushing, idle]
    rfl
  have completed : Shape { s with readCb := none } := shape.update rfl isOpen shape.queued
  cases event with
  | readable hset read =>
    simp only [QuicTransportStream.react, onReadable]
    split
    · exact shape.tryTakeHeaders hset
    · cases s.readCb with
      | none => exact shape
      | some cb =>
        cases read with
        | again => exact shape
        | data bytes => exact completed.push rfl (Or.inl rfl)
        | reset => exact completed.push rfl (Or.inl rfl)
        | failed => exact completed.push rfl (Or.inl rfl)
  | writeable write =>
    apply shape_pumpWrite
    · intro _
      exact shape.update rfl isOpen shape.queued
    · intro closed
      exact absurd (closed.symm.trans isOpen) Bool.false_ne_true
    · intro flushes
      exact absurd (isIdle.symm.trans flushes) Bool.false_ne_true
  | reset how =>
    simp only [QuicTransportStream.react, onReset]
    split
    · exact completed.push rfl (Or.inr idle)
    · apply FlushReady.shape_resetWrites _ shape
      refine ⟨shape.layered, isIdle, Or.inr idle, ?_, ?_, ?_⟩
      all_goals
        intro closed
        exact absurd (closed.symm.trans isOpen) Bool.false_ne_true
  | close =>
    simp only [QuicTransportStream.react, onClose]
    split
    · refine ⟨?_, ?_, ?_, ?_⟩
      · rw [invoke, idle]
        exact .bottom _
      · rw [invoke, idle]
        exact Nat.zero_le 1
      · intro flushes
        rw [invoke, flushing, idle] at flushes
        cases flushes
      · intro _
        exact ⟨rfl, disciplined, Or.inr rfl, Or.inr rfl⟩
    · rename_i notReading
      apply FlushReady.shape_flush
      exact ⟨shape.layered, isIdle, Or.inr idle, fun _ => notReading, fun _ => disciplined,
        fun _ => Or.inr (Or.inl rfl)⟩

/-- What is left of the shape when the innermost callback returns. -/
theorem Shape.ready (shape : Shape s) (isStack : s.stack = frame :: stack) {next : FlushThen}
    (queue : List WriteOp) (idle : stack.any Frame.isFlush = false)
    (outermost : next = .pump ∨ stack = [])
    (completes : frame.completesShutdown = true → next = .close) :
    FlushReady { s with stack, writeQueue := queue } next := by
  refine ⟨(isStack ▸ shape.layered).tail, idle, outermost, ?_, ?_, ?_⟩
  · intro closed
    exact (shape.closing closed).readCb
  · intro closed
    exact (shape.closing closed).headersCb
  · intro closed
    apply (shape.closing closed).shutdownCb.imp_right
    intro some
    rw [isStack, List.any_cons, Bool.or_eq_true] at some
    exact some.imp_left completes

theorem Shape.pop (shape : Shape s) (isStack : s.stack = frame :: stack)
    (single : frame.isFlush = false) (shutsNothing : frame.completesShutdown = false)
    (drainsNothing : frame.drains = false) (writing : Bool) : Shape { s with stack, writing } := by
  refine ⟨(isStack ▸ shape.layered).tail, ?_, ?_, ?_⟩
  · have oneLoop := shape.oneLoop
    rw [isStack, List.countP_cons_of_neg (by simp [single])] at oneLoop
    exact oneLoop
  · intro flushes
    apply shape.queued
    rw [flushing, isStack, List.any_cons, single, Bool.false_or]
    exact flushes
  · intro closed
    rcases shape.closing closed with ⟨readCb, headersCb, shutdownCb, writes⟩
    rw [isStack, List.any_cons, shutsNothing, Bool.false_or] at shutdownCb
    rw [isStack, List.any_cons, drainsNothing, Bool.false_or, unspent_cons single] at writes
    exact ⟨readCb, headersCb, shutdownCb, writes⟩

theorem Shape.resume (shape : Shape s) (isStack : s.stack = frame :: stack) :
    Shape (QuicTransportStream.resume { s with stack } frame).1 := by
  have layered := isStack ▸ shape.layered
  cases frame with
  | returns => exact shape.pop isStack rfl rfl rfl s.writing
  | closeShutdown => exact shape.pop isStack rfl rfl rfl false
  | closeRead =>
    have outermost := layered.eq_nil rfl
    apply FlushReady.shape_flush
    refine shape.ready isStack s.writeQueue ?_ (Or.inr outermost) (fun _ => rfl)
    rw [outermost]
    rfl
  | resetRead how =>
    have outermost := layered.eq_nil rfl
    apply FlushReady.shape_resetWrites
    · refine shape.ready isStack s.writeQueue ?_ (Or.inr outermost) nofun
      rw [outermost]
      rfl
    · exact shape.pop isStack rfl rfl rfl s.writing
  | flush ec next =>
    apply FlushReady.shape_flush
    refine shape.ready isStack s.writeQueue.tail ?_ ?_ ?_
    · have oneLoop := shape.oneLoop
      rw [isStack, List.countP_cons_of_pos rfl] at oneLoop
      have idle : flushing { s with stack } = false :=
        flushing_eq_false_iff.mpr (Nat.le_zero.mp (Nat.le_of_succ_le_succ oneLoop))
      exact idle
    · cases next with
      | pump => exact Or.inl rfl
      | reset => exact Or.inr (layered.eq_nil rfl)
      | close => exact Or.inr (layered.eq_nil rfl)
    · intro completes
      cases next with
      | close => rfl
      | pump => cases completes
      | reset => cases completes

/-! ## Calls of the stream -/

/-- A method takes care of the callback that it is handed. -/
structure Handles (s : QuicTransportStream) (cb : ℕ) (result : Result) : Prop where
  settles : Settles result (cb :: s.pending) s.nextCb
  shape : Shape result.1

theorem Settles.of_count {result : Result} (settles : Settles result owed nextCb) {owed' : List ℕ}
    (same : ∀ cb, owed.count cb = owed'.count cb) : Settles result owed' nextCb := by
  refine ⟨?_, settles.accepts, settles.numbered⟩
  intro cb
  exact (settles.account cb).trans (same cb)

theorem Handles.behind_touch {cb : ℕ} {result : Result} (handles : Handles s cb result)
    (s' : QuicTransportStream) (call : LsquicCall) : Handles s cb (behind [s'.touch call] result) :=
  ⟨handles.settles.behind_touch s' call, handles.shape⟩

theorem Shape.handles_invoke (shape : Shape s) (cb : ℕ) (result : CallbackResult) :
    Handles s cb (s.invoke .returns cb result) := by
  constructor
  · refine settles_invoke rfl ?_ rfl result
    intro other
    simp only [List.count_cons, List.count_nil]
    omega
  · exact shape.push rfl (Or.inl rfl)

theorem Shape.handles_asyncReadSome (shape : Shape s) (notReading : s.readCb = none) (size cb : ℕ) :
    Handles s cb (s.asyncReadSome size cb) := by
  unfold asyncReadSome
  split
  · exact shape.handles_invoke cb _
  · rename_i notClosed
    constructor
    · refine ((settles_rest rfl rfl).behind_touch s _).of_count ?_
      intro other
      simp only [pending, notReading, List.count_append, List.count_cons, Option.toList_some,
        Option.toList_none, List.count_nil]
      omega
    · exact shape.update rfl (Bool.eq_true_of_not_eq_false notClosed) shape.queued

theorem unspent_append (queued : s.flushing = true → s.writeQueue ≠ []) (op : WriteOp) :
    unspent s.stack (s.writeQueue ++ [op]) = unspent s.stack s.writeQueue ++ [op] := by
  rw [flushing] at queued
  unfold unspent
  split
  · rename_i flushes
    exact List.tail_append_of_ne_nil (queued flushes)
  · rfl

theorem Shape.handles_asyncWriteSome (shape : Shape s)
    (waits : s.flushing = true → s.stream = true ∧ s.writing = true) (data : Bytes)
    (write : LsquicWrite) (cb : ℕ) : Handles s cb (s.asyncWriteSome data write cb) := by
  let s' : QuicTransportStream := { s with writeQueue := s.writeQueue ++ [{ data, cb }] }
  constructor
  · have settles : Settles (s'.pumpWrite write) s'.pending s'.nextCb :=
      settles_pumpWrite write waits
    refine settles.of_count ?_
    intro other
    simp only [s', pending, unspent_append shape.queued, List.map_append, List.map_cons,
      List.map_nil, List.count_append, List.count_cons, List.count_nil]
    omega
  · refine shape_pumpWrite (s := s') write ?_ ?_ waits
    · intro isOpen
      exact shape.update rfl isOpen (fun _ => List.append_ne_nil_of_right_ne_nil _ nofun)
    · intro closed
      have closing := shape.closing closed
      refine ⟨shape.layered, ?_, Or.inl rfl, fun _ => closing.readCb, fun _ => closing.headersCb,
        fun _ => closing.shutdownCb.imp_right Or.inr⟩
      by_contra flushes
      exact Bool.false_ne_true (closed.symm.trans (waits (Bool.eq_true_of_not_eq_false flushes)).1)

theorem Shape.handles_asyncShutdown (shape : Shape s) (isOpen : s.stream = true)
    (notShutting : s.shutdownCb = none) (ok : Bool) (cb : ℕ) :
    Handles s cb (s.asyncShutdown ok cb) := by
  apply Handles.behind_touch
  cases ok with
  | true =>
    have same : { s with shutdownCb := none } = s := by
      rw [← notShutting]
    rw [if_pos rfl, same]
    exact shape.handles_invoke cb _
  | false =>
    constructor
    · refine (settles_rest rfl rfl).of_count ?_
      intro other
      simp only [pending, notShutting, List.count_append, List.count_cons, Option.toList_some,
        Option.toList_none, List.count_nil]
      omega
    · exact shape.update rfl isOpen shape.queued

theorem Shape.handles_asyncTakeHeaders (shape : Shape s) (isOpen : s.stream = true)
    (notTaking : s.headersCb = none) (hset : Option HeaderList) (cb : ℕ) :
    Handles s cb (s.asyncTakeHeaders hset cb) := by
  apply Handles.behind_touch
  constructor
  · refine (settles_tryTakeHeaders { s with headersCb := some cb } hset).of_count ?_
    intro other
    simp only [pending, notTaking, List.count_append, List.count_cons, Option.toList_some,
      Option.toList_none, List.count_nil]
    omega
  · apply Shape.tryTakeHeaders
    exact shape.update rfl isOpen shape.queued

theorem Shape.handles_asyncSendHeaders (shape : Shape s) (headers : HeaderList) (ok : Bool)
    (cb : ℕ) : Handles s cb (s.asyncSendHeaders headers ok cb) := by
  unfold asyncSendHeaders
  split_ifs
  · exact shape.handles_invoke cb _
  · exact shape.handles_invoke cb _
  · exact ((shape.handles_invoke cb _).behind_touch s _).behind_touch s _
  · exact (shape.handles_invoke cb _).behind_touch s _

/-! ## Whole runs -/

/-- The account of a run. -/
structure Account (trace : List Effect) (s : QuicTransportStream) : Prop where
  shape : Shape s
  numbered : acceptedIn trace = List.range s.nextCb
  balance : Balanced s.pending (invokedIn trace) (acceptedIn trace)

theorem acceptedIn_append (first second : List Effect) :
    acceptedIn (first ++ second) = acceptedIn first ++ acceptedIn second :=
  List.filterMap_append

theorem invokedIn_append (first second : List Effect) :
    invokedIn (first ++ second) = invokedIn first ++ invokedIn second :=
  List.filterMap_append

variable {trace : List Effect} {s : QuicTransportStream}

theorem Account.settle (holds : Account trace s) {result : Result}
    (settles : Settles result s.pending s.nextCb) (shape : Shape result.1) :
    Account (trace ++ result.2) result.1 := by
  refine ⟨shape, ?_, ?_⟩
  · rw [acceptedIn_append, settles.accepts, List.append_nil, settles.numbered, holds.numbered]
  · rw [acceptedIn_append, invokedIn_append, settles.accepts, List.append_nil]
    exact holds.balance.settle settles.account

theorem Account.accept (holds : Account trace s)
    {method : QuicTransportStream → ℕ → Result}
    (handles : Shape { s with nextCb := s.nextCb + 1 } →
      Handles { s with nextCb := s.nextCb + 1 } s.nextCb
        (method { s with nextCb := s.nextCb + 1 } s.nextCb)) :
    Account (trace ++ (s.accept method).2) (s.accept method).1 := by
  have renumbered : Shape { s with nextCb := s.nextCb + 1 } := by
    refine ⟨holds.shape.layered, holds.shape.oneLoop, holds.shape.queued, ?_⟩
    intro closed
    rcases holds.shape.closing closed with ⟨readCb, headersCb, shutdownCb, writes⟩
    exact ⟨readCb, headersCb, shutdownCb, writes⟩
  rcases handles renumbered with ⟨settles, shape⟩
  have accepts : acceptedIn (s.accept method).2 = [s.nextCb] := by
    rw [QuicTransportStream.accept, behind, acceptedIn_append, settles.accepts]
    rfl
  refine ⟨shape, ?_, ?_⟩
  · have numbered : (s.accept method).1.nextCb = s.nextCb + 1 := settles.numbered
    rw [acceptedIn_append, accepts, holds.numbered, numbered, List.range_succ]
  · rw [acceptedIn_append, invokedIn_append, accepts]
    exact holds.balance.accept settles.account

theorem Account.perform (holds : Account trace s) {call : Call}
    (disciplined : s.Disciplined (.call call)) :
    Account (trace ++ (s.perform call).2) (s.perform call).1 := by
  cases call with
  | asyncReadSome size =>
    exact holds.accept (fun shape => shape.handles_asyncReadSome disciplined size _)
  | asyncWriteSome data write =>
    exact holds.accept (fun shape => shape.handles_asyncWriteSome disciplined data write _)
  | asyncShutdown ok =>
    exact holds.accept
      (fun shape => shape.handles_asyncShutdown disciplined.1 disciplined.2 ok _)
  | asyncTakeHeaders hset =>
    unfold QuicTransportStream.perform
    dsimp only
    split
    · rw [List.append_nil]
      exact holds
    · rename_i accepts
      rw [not_or, Bool.not_eq_false, Option.not_isSome_iff_eq_none] at accepts
      exact holds.accept
        (fun shape => shape.handles_asyncTakeHeaders accepts.1 accepts.2 hset _)
  | asyncSendHeaders headers ok =>
    exact holds.accept (fun shape => shape.handles_asyncSendHeaders headers ok _)

theorem Account.step (holds : Account trace s) {stimulus : Stimulus} {result : Result}
    (disciplined : s.Disciplined stimulus) (taken : s.step stimulus = some result) :
    Account (trace ++ result.2) result.1 := by
  rcases step_cases taken with ⟨call, rfl, rfl⟩ | ⟨event, rfl, isOpen, idle, rfl⟩ |
    ⟨frame, stack, rfl, isStack, rfl⟩
  · exact holds.perform disciplined
  · exact holds.settle (settles_react idle event) (holds.shape.react isOpen idle disciplined)
  · exact holds.settle (settles_resume holds.shape isStack) (holds.shape.resume isStack)

theorem account_start : Account [] {} := by
  refine ⟨⟨.nil, Nat.zero_le 1, nofun, nofun⟩, rfl, ?_⟩
  intro cb
  rfl

theorem account_of_runs (runs : Runs step Disciplined {} trace s) : Account trace s :=
  Runs.invariant account_start
    (fun holds disciplined taken => holds.step disciplined taken) runs

theorem mem_acceptedIn {cb : ℕ} : cb ∈ acceptedIn trace ↔ .accepted cb ∈ trace := by
  rw [acceptedIn, List.mem_filterMap]
  constructor
  · rintro ⟨effect, isEffect, isCb⟩
    cases effect with
    | accepted other =>
      cases isCb
      exact isEffect
    | invoked other result => cases isCb
    | lsquic handle call => cases isCb
  · intro accepted
    exact ⟨_, accepted, rfl⟩

theorem Account.once (holds : Account trace s) {cb : ℕ} (accepted : .accepted cb ∈ trace) :
    (invokedIn trace).count cb = 1 ∨ (invokedIn trace).count cb = 0 ∧ cb ∈ s.pending := by
  -- no callback is accepted twice: they are numbered in the order of their acceptance
  refine holds.balance.once ?_ (mem_acceptedIn.mpr accepted)
  rw [holds.numbered]
  exact List.nodup_range

theorem Shape.pending_eq_nil (shape : Shape s) (closed : s.stream = false) (idle : s.stack = []) :
    s.pending = [] := by
  rcases shape.closing closed with ⟨readCb, headersCb, shutdownCb, writes⟩
  rw [idle] at shutdownCb writes
  have noShutdown := shutdownCb.resolve_right Bool.false_ne_true
  have noWrite := writes.resolve_right Bool.false_ne_true
  simp [pending, readCb, headersCb, noShutdown, idle, noWrite]

/--
In every run that keeps to the discipline, only accepted callbacks are invoked, each at most
once; one that has not been invoked is still held by the stream; and once `on_close` has
returned each of them has been invoked.
-/
theorem completes_exactly_once (runs : Runs step Disciplined {} trace s) :
    (∀ cb ∈ invokedIn trace, .accepted cb ∈ trace) ∧
      (∀ cb, .accepted cb ∈ trace → (invokedIn trace).count cb = 1 ∨
        (invokedIn trace).count cb = 0 ∧ cb ∈ s.pending) ∧
      (s.stream = false → s.stack = [] →
        ∀ cb, .accepted cb ∈ trace → (invokedIn trace).count cb = 1) := by
  have holds := account_of_runs runs
  refine ⟨?_, ?_, ?_⟩
  · intro cb invoked
    exact mem_acceptedIn.mp (holds.balance.mem_taken invoked)
  · intro cb accepted
    exact holds.once accepted
  · intro closed idle cb accepted
    rcases holds.once accepted with once | ⟨-, isPending⟩
    · exact once
    · rw [holds.shape.pending_eq_nil closed idle] at isPending
      cases isPending

/-- All kinds of callbacks, and a stream that is closed under the last three. -/
def closedWhileBusy : List Stimulus :=
  [.call (.asyncTakeHeaders none), .event (.readable (some []) .again), .ret,
    .call (.asyncReadSome 4096), .call (.asyncWriteSome (ascii "hi") (.accepted 1)),
    .call (.asyncShutdown false), .event .close, .ret, .call (.asyncReadSome 4096), .ret, .ret,
    .ret]

theorem completes_exactly_once_closedWhileBusy :
    ∃ trace s, Runs step Disciplined {} trace s ∧
      s.stream = false ∧ s.stack = [] ∧ acceptedIn trace = [0, 1, 2, 3, 4] ∧
      ∀ cb, .accepted cb ∈ trace → (invokedIn trace).count cb = 1 := by
  have reached : (run step (fun s stimulus => decide (s.Disciplined stimulus)) {}
      closedWhileBusy).any (fun last =>
        decide (last.1.stream = false ∧ last.1.stack = [] ∧
          acceptedIn last.2 = [0, 1, 2, 3, 4])) = true := by
    decide +kernel
  rcases exists_runs_of_run reached with ⟨trace, s, runs, closed, idle, accepted⟩
  exact ⟨trace, s, runs, closed, idle, accepted, (completes_exactly_once runs).2.2 closed idle⟩

/-- At most one read is outstanding. -/
def OneRead (s : QuicTransportStream) : Stimulus → Prop
  | .call (.asyncReadSome _) => s.readCb = none
  | _ => True

instance (s : QuicTransportStream) : ∀ stimulus, Decidable (s.OneRead stimulus)
  | .call (.asyncReadSome _) => inferInstanceAs (Decidable (s.readCb = none))
  | .call (.asyncWriteSome _ _) | .call (.asyncShutdown _) | .call (.asyncTakeHeaders _)
  | .call (.asyncSendHeaders _ _) | .event _ | .ret => .isTrue trivial

/-- The stream is closed before the headers have arrived. -/
def closedWhileTaking : List Stimulus := [.call (.asyncTakeHeaders none), .event .close]

/-- The callback of a write that fails because the stream is closed writes again. -/
def writtenWhileClosing : List Stimulus :=
  [.call (.asyncWriteSome (ascii "a") (.accepted 0)), .event .close,
    .call (.asyncWriteSome (ascii "b") .failed)]

/-- A header take is lost, and the callback of a write is invoked twice. -/
theorem callbacks_lost_and_repeated :
    (∃ trace s, Runs step OneRead {} trace s ∧ s.stream = false ∧ s.stack = [] ∧
      .accepted 0 ∈ trace ∧ (invokedIn trace).count 0 = 0) ∧
    ∃ trace s, Runs step OneRead {} trace s ∧ (invokedIn trace).count 0 = 2 := by
  constructor
  · have reached : (run step (fun s stimulus => decide (s.OneRead stimulus)) {}
        closedWhileTaking).any (fun last =>
          decide (last.1.stream = false ∧ last.1.stack = [] ∧ .accepted 0 ∈ last.2 ∧
            (invokedIn last.2).count 0 = 0)) = true := by
      decide +kernel
    exact exists_runs_of_run reached
  · have reached : (run step (fun s stimulus => decide (s.OneRead stimulus)) {}
        writtenWhileClosing).any (fun last =>
          decide ((invokedIn last.2).count 0 = 2)) = true := by
      decide +kernel
    exact exists_runs_of_run reached

end QuicTransportStream

end ReverseProxy
