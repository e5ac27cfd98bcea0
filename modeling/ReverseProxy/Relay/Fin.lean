import ReverseProxy.Relay.Steps

/-!
# Nothing is written to the client after its FIN

Three places shut the client's stream down while the relay lives on: `graceful_close`
in the request phase, `gracefully_close_client` after a response, and the HTTP/3 writer
after its message.  What can still be outstanding then is `Silent`: a parse of the next
request, the drain loop, or the completion of the writer's FIN.  Two of these go on to
write: a request that is parsed after `graceful_close`, and a tunnel that is opened
with a message of the HTTP/3 writer.  In all other runs the FIN is last.
-/

namespace ReverseProxy

open Machine Text

namespace RelaySession

/-- The relay writes a head, a body piece or tunnel bytes to its client. -/
def Action.writesClient : Action → Bool
  | .write .client _ | .sendHeaders .client _ => true
  | _ => false

/-- No write to the client comes after a shutdown of the client's stream. -/
def FinIsLast (trace : List Action) : Prop :=
  trace.Pairwise fun earlier later => earlier = .shutdown .client → later.writesClient = false

instance (trace : List Action) : Decidable (FinIsLast trace) := by
  unfold FinIsLast
  infer_instance

/-- The relay has not been torn down before this step. -/
def NotTornDown (relay : RelaySession) (_ : Input) : Prop :=
  relay.done = false

instance (relay : RelaySession) (input : Input) : Decidable (relay.NotTornDown input) := by
  unfold NotTornDown
  infer_instance

/-- The completion makes a client request complete. -/
def parsesRequest (op : Op) (completion : Completion) : Bool :=
  match requestProgress op completion with
  | some (.complete _) => true
  | _ => false

/-- The completion of a finished HTTP/3 message starts a tunnel. -/
def bridgesAfterFin : Op → Completion → Bool
  | .finish .client .upgraded, .written none | .finish .client .tunnelOpened, .written none => true
  | _, _ => false

/--
The step neither parses a request while the relay drains nor starts a tunnel behind a
finished HTTP/3 message.
-/
def RespectsFin (relay : RelaySession) : Input → Prop
  | .complete op completion =>
    (relay.draining = true → parsesRequest op completion = false) ∧
      bridgesAfterFin op completion = false
  | _ => True

instance (relay : RelaySession) : ∀ input, Decidable (relay.RespectsFin input)
  | .complete op completion =>
    inferInstanceAs (Decidable
      ((relay.draining = true → parsesRequest op completion = false) ∧
        bridgesAfterFin op completion = false))
  | .timerExpires | .timerHandler | .gracefulClose => .isTrue trivial

/-- Operations that may be outstanding once the client's stream is shut down. -/
def Op.afterFin (draining : Bool) : Op → Bool
  | .readHead .client _ | .takeHeaders .client => draining
  | .finish .client _ | .drainRead => true
  | _ => false

/-- Nothing more is written. -/
def Silent (relay : RelaySession) : Prop :=
  ∀ op ∈ relay.pending, op.afterFin relay.draining = true

/-! ## Callbacks before the FIN -/

theorem finIsLast_append {before after : List Action} (fresh : .shutdown .client ∉ before)
    (silent : ∀ action ∈ after, action.writesClient = false) : FinIsLast (before ++ after) := by
  apply List.pairwise_append.mpr
  refine ⟨?_, ?_, ?_⟩
  · apply List.Pairwise.imp_of_mem _ (List.pairwise_of_forall (fun _ _ => trivial))
    rintro earlier later earlierMem - - rfl
    exact absurd earlierMem fresh
  · apply List.Pairwise.imp_of_mem _ (List.pairwise_of_forall (fun _ _ => trivial))
    intro earlier later _ laterMem _ _
    exact silent later laterMem
  · intro earlier _ later laterMem _
    exact silent later laterMem

/-- A callback that shuts the client down at most at its end, and then falls silent. -/
structure FinsLast (after : RelaySession) : Prop where
  split : ∃ before last, after.out = before ++ last ∧ .shutdown .client ∉ before ∧
    (∀ action ∈ last, action.writesClient = false) ∧
    (.shutdown .client ∈ last → after.done = true ∨ after.Silent)

variable {completion : Completion}

section Fresh

variable {relay after : RelaySession}

theorem finsLast_of_fresh (fresh : .shutdown .client ∉ after.out) : after.FinsLast :=
  ⟨after.out, [], by simp, fresh, by simp, by simp⟩

theorem headAction_ne (dest peer : Peer) (codec : Codec) (bytes : Bytes) (headers : HeaderList) :
    .shutdown peer ≠ headAction dest codec bytes headers := by
  cases codec <;> simp [headAction]

theorem finsLast_teardown (running : relay.done = false) (fresh : .shutdown .client ∉ relay.out) :
    relay.teardown.FinsLast := by
  rw [teardown_eq _ running]
  refine ⟨relay.out ++ if relay.phase = .closed then [] else [.phase .closed],
    .shutdown .client :: relay.closeActions, by simp [teardownActions], ?_, ?_,
    fun _ => .inl rfl⟩
  · split <;> simp [fresh]
  · unfold closeActions
    cases relay.backend <;> simp [Action.writesClient]

theorem finsLast_writeResponse (fresh : .shutdown .client ∉ relay.out) (head : HttpResponseHead)
    (body : Option MessageBody) (next : WriteThen) :
    (relay.writeResponse head body next).FinsLast := by
  apply finsLast_of_fresh
  rw [writeResponse, writeMessage_eq]
  simp [fresh, headAction_ne]

theorem fresh_closeActions (relay : RelaySession) : .shutdown .client ∉ relay.closeActions := by
  unfold closeActions
  cases relay.backend <;> simp

theorem fresh_finishActions (relay : RelaySession) (keepAlive : Bool) :
    .shutdown .client ∉ relay.finishActions keepAlive := by
  unfold finishActions
  cases relay.backend <;> cases keepAlive <;> simp

theorem fresh_phaseChange (relay : RelaySession) (phase : Phase) :
    .shutdown .client ∉ relay.phaseChange phase := by
  unfold phaseChange
  split <;> simp

theorem AfterResponse.finsLast (continues : relay.AfterResponse after)
    (idle : relay.pending = []) (fresh : .shutdown .client ∉ relay.out) : after.FinsLast := by
  cases continues with
  | nextRequest => exact finsLast_of_fresh (by simp [fresh, fresh_phaseChange])
  | shutDown running last =>
    refine ⟨relay.out, _, rfl, fresh, by simp [Action.writesClient], fun _ => .inr ?_⟩
    simp [Silent, idle, Op.afterFin]
  | drain => exact finsLast_of_fresh (by simp [fresh])
  | finished done => exact finsLast_of_fresh fresh

theorem Resumes.finsLast {next : WriteThen} {ec : Option ErrorCode}
    (resumes : relay.Resumes next ec after) (running : relay.done = false)
    (idle : relay.pending = []) (fresh : .shutdown .client ∉ relay.out) : after.FinsLast := by
  cases resumes with
  | awaitsResponse retryAllowed idleTimer stream isBackend =>
    apply finsLast_of_fresh
    cases relay.backendCodec <;> simp [fresh, fresh_phaseChange, parseAction]
  | losesBackend => exact finsLast_of_fresh (by simp [fresh, fresh_phaseChange])
  | reconnects => exact finsLast_of_fresh (by simp [fresh, fresh_closeActions])
  | writeFails => exact finsLast_writeResponse (by simp [fresh, fresh_closeActions]) _ _ _
  | exchanged keepAlive ec continues =>
    exact continues.finsLast idle (by simp [fresh, fresh_finishActions])
  | rejected ec continues => exact continues.finsLast idle fresh
  | bridges => exact finsLast_of_fresh (by simp [fresh, fresh_phaseChange])
  | bridgesNothing => exact finsLast_of_fresh (by simp [fresh, fresh_phaseChange])
  | bridgeFails => exact finsLast_teardown running fresh

theorem Ends.shown_eq {op : Op} {dest : Peer} {codec : Codec} {next : WriteThen}
    {ec : Option ErrorCode} {shown : List Action}
    (ends : Ends op completion dest codec next ec shown) :
    shown = [] ∨ shown = [.exhausted dest] := by
  cases ends <;> simp

theorem Handled.finsLast {op : Op} (handled : relay.Handled op completion after)
    (running : relay.done = false) (idle : relay.pending = [])
    (fresh : .shutdown .client ∉ relay.out) : after.FinsLast := by
  cases handled with
  | requestMore => exact finsLast_of_fresh (by simp [fresh])
  | requestFails => exact finsLast_teardown running fresh
  | requestForwarded =>
    apply finsLast_of_fresh
    simp [connect, served, emit, await, fresh, fresh_phaseChange]
  | requestRejected =>
    exact finsLast_writeResponse (by simp [served, fresh, fresh_phaseChange]) _ _ _
  | connectFails =>
    apply finsLast_writeResponse
    exact fresh
  | requestSent => exact finsLast_of_fresh (by simp [fresh, headAction_ne])
  | tunnelAccepted =>
    apply finsLast_writeResponse
    exact fresh
  | requestResent => exact finsLast_of_fresh (by simp [fresh, headAction_ne])
  | bodyAsks => exact finsLast_of_fresh (by simp [fresh])
  | pieceSent => exact finsLast_of_fresh (by simp [fresh])
  | @finishes _ _ dest next _ shown ends =>
    refine ⟨relay.out ++ shown, [.shutdown dest], rfl, ?_, by simp [Action.writesClient], ?_⟩
    · rcases ends.shown_eq with rfl | rfl <;> simp [fresh]
    · intro isClient
      simp only [List.mem_singleton, Action.shutdown.injEq] at isClient
      subst isClient
      exact .inr (by simp [Silent, idle, Op.afterFin])
  | messageEnds ends resumes =>
    apply resumes.finsLast running idle
    rcases ends.shown_eq with rfl | rfl <;> simp [fresh]
  | finished dest next ec resumes => exact resumes.finsLast running idle (by simp [fresh])
  | responseMore => exact finsLast_of_fresh (by simp [fresh])
  | responseFails => exact finsLast_writeResponse (by simp [fresh, fresh_closeActions]) _ _ _
  | upgradeAnswered => exact finsLast_writeResponse (by simp [answered, fresh]) _ _ _
  | responseAnswered => exact finsLast_writeResponse (by simp [answered, fresh]) _ _ _
  | drainReads => exact finsLast_of_fresh (by simp [fresh])
  | drainEnds => exact finsLast_teardown running fresh

theorem Carried.finsLast {op : Op} {src dst : Peer}
    (carried : relay.Carried src dst op completion after) (running : relay.done = false)
    (fresh : .shutdown .client ∉ relay.out) : after.FinsLast := by
  cases carried with
  | forwards => exact finsLast_of_fresh (by simp [fresh])
  | reads => exact finsLast_of_fresh (by simp [fresh])
  | ends => exact finsLast_teardown running fresh

theorem fresh_arrivals (op : Op) (completion : Completion) :
    .shutdown .client ∉ arrivals op completion := by
  unfold arrivals
  split
  · split <;> simp
  · simp

/-- While a request is awaited, only its parse is outstanding. -/
theorem Control.silent_of_request (control : relay.Control) (alive : relay.crashed = false)
    (running : relay.done = false) (waiting : relay.phase = .request) :
    Silent { relay with draining := true, out := [.shutdown .client] } := by
  cases control with
  | finished done => simp [running] at done
  | crashed dead => simp [alive] at dead
  | bridged _ _ _ _ bridging => simp [At, running, waiting] at bridging
  | waiting op _ pending awaits =>
    simp only [Silent, pending, List.mem_singleton, forall_eq]
    cases op with
    | readHead peer buf =>
      cases peer with
      | client => rfl
      | backend stream => simp [Awaits, At, running, waiting] at awaits
    | takeHeaders peer =>
      cases peer with
      | client => rfl
      | backend stream => simp [Awaits, At, running, waiting] at awaits
    | writeHead dest codec body next =>
      cases next <;> simp [Awaits, Writing, At, running, waiting] at awaits
    | readBody dest codec body capacity next =>
      cases next <;> simp [Awaits, Writing, At, running, waiting] at awaits
    | writeBody dest codec body next =>
      cases next <;> simp [Awaits, Writing, At, running, waiting] at awaits
    | finish dest next => cases next <;> simp [Awaits, Writing, At, running, waiting] at awaits
    | _ => simp [Awaits, At, running, waiting] at awaits

theorem Outcome.finsLast {input : Input} (outcome : relay.Outcome input after)
    (alive : relay.crashed = false) (running : relay.done = false) (control : relay.Control) :
    after.FinsLast := by
  cases outcome with
  | exchange waits awaits fits handled => exact handled.finsLast running rfl (fresh_arrivals _ _)
  | tunnel _ _ _ _ _ _ carried => exact carried.finsLast running (fresh_arrivals _ _)
  | expired => exact finsLast_of_fresh (by simp)
  | timedOut => exact finsLast_teardown running (by simp)
  | shutsDown _ waiting =>
    refine ⟨[], [.shutdown .client], rfl, by simp, by simp [Action.writesClient], fun _ => ?_⟩
    exact .inr (control.silent_of_request alive running waiting)
  | drains => exact finsLast_of_fresh (by simp)
  | ignored => exact finsLast_of_fresh (fresh_arrivals _ _)
  | alreadyClosed => exact finsLast_of_fresh (by simp)

end Fresh

/-! ## Callbacks after the FIN -/

/-- The current step writes nothing to the client. -/
def Quiescent (relay : RelaySession) : Prop :=
  ∀ action ∈ relay.out, action.writesClient = false

/-- A callback that writes nothing to the client and leaves the relay silent. -/
structure StaysSilent (after : RelaySession) : Prop where
  quiescent : after.Quiescent
  rests : after.done = true ∨ after.Silent

section Silent

variable {relay after : RelaySession}

theorem Quiescent.append (quiescent : relay.Quiescent) {out more : List Action}
    (extended : out = relay.out ++ more) (quiet : ∀ action ∈ more, action.writesClient = false) :
    ∀ action ∈ out, action.writesClient = false := by
  intro action actionMem
  rw [extended] at actionMem
  rcases List.mem_append.mp actionMem with earlier | later
  · exact quiescent action earlier
  · exact quiet action later

theorem staysSilent_teardown (running : relay.done = false) (quiescent : relay.Quiescent) :
    relay.teardown.StaysSilent := by
  rw [teardown_eq _ running]
  refine ⟨quiescent.append rfl ?_, .inl rfl⟩
  unfold teardownActions closeActions
  split <;> cases relay.backend <;> simp [Action.writesClient]

theorem AfterResponse.staysSilent (continues : relay.AfterResponse after)
    (idle : relay.pending = []) (overQuic : relay.clientCodec = .h3)
    (quiescent : relay.Quiescent) : after.StaysSilent := by
  have silent : ∀ draining, Silent { relay with draining, pending := relay.pending ++ [.drainRead] } := by
    simp [Silent, idle, Op.afterFin]
  cases continues with
  | nextRequest idleTimer running keepAlive overTcp => simp [overQuic] at overTcp
  | shutDown running last =>
    exact ⟨quiescent.append rfl (by simp [Action.writesClient]), .inr (silent _)⟩
  | drain running overQuic serving =>
    exact ⟨quiescent.append rfl (by simp [Action.writesClient]), .inr (silent _)⟩
  | finished done => exact ⟨quiescent, .inl done⟩

theorem Resumes.staysSilent {body : Option MessageBody} {next : WriteThen} {ec : Option ErrorCode}
    (resumes : relay.Resumes next ec after) (running : relay.done = false)
    (idle : relay.pending = []) (writing : relay.Writing .client .h3 body next)
    (closes : ec = none → next ≠ .upgraded ∧ next ≠ .tunnelOpened) (quiescent : relay.Quiescent)
    : after.StaysSilent := by
  cases resumes with
  | awaitsResponse | losesBackend | reconnects | writeFails =>
    rcases writing with ⟨stream, -, isDest, -⟩
    simp at isDest
  | exchanged keepAlive ec continues =>
    rcases writing with ⟨_, -, -, overQuic, -⟩
    apply continues.staysSilent idle overQuic.symm
    apply quiescent.append rfl
    unfold finishActions
    cases relay.backend <;> cases keepAlive <;> simp [Action.writesClient]
  | rejected ec continues => exact continues.staysSilent idle writing.2.2.1.symm quiescent
  | bridges next _ _ _ opens | bridgesNothing next _ _ opens =>
    rcases opens with rfl | rfl
    · exact absurd rfl (closes rfl).1
    · exact absurd rfl (closes rfl).2
  | bridgeFails => exact staysSilent_teardown running quiescent

theorem quiescent_arrivals (op : Op) (completion : Completion) :
    ∀ action ∈ arrivals op completion, action.writesClient = false := by
  unfold arrivals
  split
  · split <;> simp [Action.writesClient]
  · simp

theorem afterFin_of_requestProgress {op : Op} {draining : Bool}
    {progress : H1Codec.Progress ParsedRequest}
    (requesting : requestProgress op completion = some progress) :
    op.afterFin draining = draining := by
  unfold requestProgress at requesting
  split at requesting <;> first | rfl | simp at requesting

theorem not_afterFin_of_responseProgress {op : Op} {draining : Bool} {stream : TransportStream}
    {progress : H1Codec.Progress ParsedResponse}
    (responding : responseProgress stream op completion = some progress) :
    op.afterFin draining = false := by
  unfold responseProgress at responding
  split at responding <;> first | rfl | simp at responding

theorem Advances.not_afterFin {op : Op} {dest : Peer} {codec : Codec} {body : MessageBody}
    {next : WriteThen} {bodyStep : BodySource × BodyStep} {draining : Bool}
    (advances : Advances op completion dest codec body next bodyStep) :
    op.afterFin draining = false := by
  cases advances <;> rfl

theorem Ends.not_afterFin {op : Op} {dest : Peer} {codec : Codec} {next : WriteThen}
    {ec : Option ErrorCode} {shown : List Action} {draining : Bool}
    (ends : Ends op completion dest codec next ec shown) : op.afterFin draining = false := by
  cases ends with
  | headFails | headIsAll | pieceFails => rfl
  | bodyFails advances | bodyEnds advances => exact advances.not_afterFin

theorem Handled.staysSilent {op : Op} (handled : relay.Handled op completion after)
    (running : relay.done = false) (idle : relay.pending = []) (awaits : relay.Awaits op)
    (afterFin : op.afterFin relay.draining = true)
    (respects : relay.RespectsFin (.complete op completion)) (quiescent : relay.Quiescent) :
    after.StaysSilent := by
  cases handled with
  | requestMore progress =>
    rw [afterFin_of_requestProgress progress] at afterFin
    refine ⟨quiescent.append rfl (by simp [Action.writesClient]), .inr ?_⟩
    simp [Silent, idle, Op.afterFin, afterFin]
  | requestFails => exact staysSilent_teardown running quiescent
  | requestForwarded progress | requestRejected progress =>
    rw [afterFin_of_requestProgress progress] at afterFin
    have notParsed := respects.1 afterFin
    simp [parsesRequest, progress] at notParsed
  | finished dest next ec resumes =>
    cases dest with
    | backend stream => simp [Op.afterFin] at afterFin
    | client =>
      apply resumes.staysSilent running idle (Writing.update awaits _ _)
      · rintro rfl
        have closes := respects.2
        constructor <;> rintro rfl <;> simp [bridgesAfterFin] at closes
      · exact quiescent.append rfl (by simp [Action.writesClient])
  | responseMore progress | responseFails _ progress | upgradeAnswered progress
  | responseAnswered progress => simp [not_afterFin_of_responseProgress progress] at afterFin
  | drainReads data examined idleTimer running =>
    refine ⟨quiescent.append rfl (by simp [Action.writesClient]), .inr ?_⟩
    simp [Silent, idle, Op.afterFin]
  | drainEnds => exact staysSilent_teardown running quiescent
  | bodyAsks advances | pieceSent advances => simp [advances.not_afterFin] at afterFin
  | finishes ends | messageEnds ends => simp [ends.not_afterFin] at afterFin
  | _ => simp [Op.afterFin] at afterFin

theorem Silent.draining (silent : relay.Silent) :
    ∀ op ∈ relay.pending, op.afterFin true = true := by
  intro op opMem
  have afterFin := silent op opMem
  unfold Op.afterFin at afterFin ⊢
  split at afterFin <;> simp_all

/-- A silent relay stays silent in a step that respects its FIN. -/
theorem Outcome.staysSilent {input : Input} (outcome : relay.Outcome input after)
    (running : relay.done = false) (silent : relay.Silent) (respects : relay.RespectsFin input) :
    after.StaysSilent := by
  cases outcome with
  | @exchange op completion _ waits awaits fits handled =>
    apply handled.staysSilent running rfl (awaits.update _ _ _ _)
    · exact silent op (by simp [waits])
    · exact respects
    · exact quiescent_arrivals op completion
  | tunnel _ _ _ carries outstanding =>
    have afterFin := silent _ outstanding
    rcases carries with rfl | rfl <;> simp [Op.afterFin] at afterFin
  | expired => exact ⟨by simp [Quiescent], .inr silent⟩
  | timedOut => exact staysSilent_teardown running (by simp [Quiescent, Action.writesClient])
  | shutsDown _ waiting => exact ⟨by simp [Quiescent, Action.writesClient], .inr silent.draining⟩
  | drains _ busy => exact ⟨by simp [Quiescent], .inr silent.draining⟩
  | ignored done => simp [running] at done
  | alreadyClosed done => simp [running] at done

end Silent

/-! ## Runs -/

/-- What is known of a run up to its FIN and beyond. -/
structure FinDiscipline (trace : List Action) (relay : RelaySession) : Prop where
  control : relay.Control
  finIsLast : FinIsLast trace
  silent : .shutdown .client ∈ trace → relay.done = true ∨ relay.Silent

theorem FinDiscipline.step {trace actions : List Action} {relay next : RelaySession}
    {input : Input} (discipline : FinDiscipline trace relay) (running : relay.done = false)
    (respects : relay.RespectsFin input) (taken : relay.step input = some (next, actions)) :
    FinDiscipline (trace ++ actions) next := by
  rcases discipline with ⟨control, finIsLast, silent⟩
  have alive : relay.crashed = false := (stepped_of_step taken).choose_spec.1
  rcases outcome_of_step control taken with ⟨after, outcome, controlled, rfl, rfl⟩
  by_cases finned : .shutdown .client ∈ trace
  · have wasSilent : relay.Silent := by
      rcases silent finned with done | isSilent
      · simp [running] at done
      · exact isSilent
    rcases outcome.staysSilent running wasSilent respects with ⟨quiescent, rests⟩
    refine ⟨controlled.update _ _ _, ?_, fun _ => rests⟩
    refine List.pairwise_append.mpr ⟨finIsLast, ?_, ?_⟩
    · exact finIsLast_append List.not_mem_nil quiescent
    · intro earlier _ later laterMem _
      exact quiescent later laterMem
  · rcases outcome.finsLast alive running control with ⟨before, last, isOut, fresh, quiet, rests⟩
    refine ⟨controlled.update _ _ _, ?_, ?_⟩
    · rw [isOut, ← List.append_assoc]
      exact finIsLast_append (by simp [finned, fresh]) quiet
    · intro shutDown
      rw [isOut] at shutDown
      simp only [List.mem_append, finned, fresh, false_or] at shutDown
      exact rests shutDown

/--
FIN discipline: until it is torn down, a relay writes nothing to its client after the
client's stream has been shut down, provided that no request is parsed after a FIN and
no tunnel is opened with a finished HTTP/3 message.
-/
theorem fin_discipline {clientCodec : Codec} {rules : List Router.Rule} {idleTimeout : ℕ}
    {trace : List Action} {relay : RelaySession}
    (runs : Runs step (fun relay input => relay.NotTornDown input ∧ relay.RespectsFin input)
      (start clientCodec rules idleTimeout) trace relay) : FinIsLast trace := by
  have discipline : FinDiscipline trace relay := by
    induction runs with
    | refl => exact ⟨control_start _ _ _, List.Pairwise.nil, by simp⟩
    | snoc _ allowed taken ih => exact ih.step allowed.1 allowed.2 taken
  exact discipline.finIsLast

/-- A client whose request has no route is answered, and then its stream is shut down. -/
def answeredAndClosed : List Input :=
  let message := ascii "no route for host\n"
  [.complete (.readHead .client []) (.read (.ok (ascii "GET / HTTP/1.0\r\n\r\n")) 0),
    .complete (.writeHead .client .h1 (some ⟨.client, .buffer message 0⟩) .errorWritten)
      (.written none),
    .complete (.writeBody .client .h1 ⟨.client, .buffer message message.length⟩ .errorWritten)
      (.written none),
    .complete .drainRead (.read (.ok (ascii "GET / HTTP/1.0\r\n\r\n")) 0)]

theorem fin_discipline_answeredAndClosed :
    ∃ trace relay,
      Runs step
          (fun relay input => relay.NotTornDown input ∧ relay.RespectsFin input)
          (start .h1 [] 0) trace relay ∧
        .shutdown .client ∈ trace ∧ FinIsLast trace := by
  have reached : (run step
      (fun relay input => decide (relay.NotTornDown input ∧ relay.RespectsFin input))
      (start .h1 [] 0) answeredAndClosed).any
        (fun last => decide (.shutdown .client ∈ last.2)) = true := by
    decide +kernel
  rcases exists_runs_of_run reached with ⟨trace, relay, runs, shutDown⟩
  exact ⟨trace, relay, runs, shutDown, fin_discipline runs⟩

/-- The server drains while the client's request is still on its way. -/
def requestAfterFin : List Input :=
  [.gracefulClose,
    .complete (.readHead .client []) (.read (.ok (ascii "GET / HTTP/1.1\r\n\r\n")) 0)]

/-- The answer to a request that arrives after the FIN is written behind the FIN. -/
theorem requestAfterFin_not_finIsLast :
    ∃ trace relay, Runs step NotTornDown (start .h1 [] 0) trace relay ∧
      relay.done = false ∧ ¬FinIsLast trace := by
  have reached : (run step (fun relay input => decide (relay.NotTornDown input))
      (start .h1 [] 0) requestAfterFin).any
        (fun last => decide (last.1.done = false ∧ ¬FinIsLast last.2)) = true := by
    decide +kernel
  exact exists_runs_of_run reached

end RelaySession

end ReverseProxy
