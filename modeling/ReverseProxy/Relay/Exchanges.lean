import Mathlib.Algebra.BigOperators.Group.Finset.Basic
import Mathlib.Algebra.Order.BigOperators.Group.Finset
import ReverseProxy.Relay.Steps

/-!
# One outcome per exchange

A relay answers a request at most once, and counts it as answered at most once.  While it
works on a request it owes one response, which it still owes as long as the operation that
it waits for is one of connecting to the backend, writing the request to it or parsing its
response.  A step that starts a response pays what was owed.
-/

namespace ReverseProxy

open Machine

namespace RelaySession

/-! ## Responses and requests of a step -/

/-- `async_write_response` starts with this operation, and nothing else does. -/
def Op.isResponse : Op → Bool
  | .writeHead .client _ _ _ => true
  | _ => false

/-- The operations that stay outstanding while a callback runs. -/
def Input.left (pending : List Op) : Input → List Op
  | .complete op _ => pending.erase op
  | .timerExpires | .timerHandler | .gracefulClose => pending

/-- The operations that a step has started; a callback adds them behind those outstanding. -/
def started (relay : RelaySession) (input : Input) (next : RelaySession) : List Op :=
  next.pending.drop (input.left relay.pending).length

/-- How often a step calls `async_write_response`. -/
def responses (relay : RelaySession) (input : Input) (next : RelaySession) : ℕ :=
  (relay.started input next).countP Op.isResponse

/-- A request is parsed. -/
def Action.isRequest : Action → Bool
  | .request _ => true
  | _ => false

/-- How many requests have been parsed. -/
def requestsIn (actions : List Action) : ℕ := actions.countP Action.isRequest

/-- A relay has parsed a request and has not begun to answer it. -/
def Op.unanswered : Op → Bool
  | .connect _ _ | .readHead (.backend _) _ | .takeHeaders (.backend _) => true
  | .writeHead _ _ _ (.requestWritten _) | .readBody _ _ _ _ (.requestWritten _) => true
  | .writeBody _ _ _ (.requestWritten _) | .finish _ (.requestWritten _) => true
  | _ => false

/-- The responses that a relay still owes. -/
def owes (relay : RelaySession) : ℕ := relay.pending.countP Op.unanswered

variable {op : Op} {completion : Completion} {next : WriteThen}

section Requests

variable {relay : RelaySession}

@[simp]
theorem requestsIn_nil : requestsIn [] = 0 := rfl

@[simp]
theorem requestsIn_cons (action : Action) (actions : List Action) :
    requestsIn (action :: actions) = requestsIn actions + if action.isRequest then 1 else 0 :=
  List.countP_cons

@[simp]
theorem requestsIn_append (first second : List Action) :
    requestsIn (first ++ second) = requestsIn first + requestsIn second :=
  List.countP_append

@[simp]
theorem requestsIn_closeActions : requestsIn relay.closeActions = 0 := by
  unfold closeActions
  cases relay.backend <;> rfl

@[simp]
theorem requestsIn_finishActions (keepAlive : Bool) :
    requestsIn (relay.finishActions keepAlive) = 0 := by
  unfold finishActions
  cases relay.backend <;> cases keepAlive <;> rfl

@[simp]
theorem requestsIn_phaseChange (phase : Phase) : requestsIn (relay.phaseChange phase) = 0 := by
  unfold phaseChange
  split <;> rfl

@[simp]
theorem requestsIn_teardownActions : requestsIn relay.teardownActions = 0 := by
  unfold teardownActions
  split <;> simp [Action.isRequest]

@[simp]
theorem isRequest_parseAction (peer : Peer) (codec : Codec) :
    (parseAction peer codec).isRequest = false := by
  cases codec <;> rfl

@[simp]
theorem isRequest_headAction (dest : Peer) (codec : Codec) (bytes : Text.Bytes)
    (headers : HeaderList) : (headAction dest codec bytes headers).isRequest = false := by
  cases codec <;> rfl

@[simp]
theorem isRequest_request (parsed : ParsedRequest) :
    Action.isRequest (.request parsed) = true := rfl

@[simp]
theorem isRequest_requestTo (stream : TransportStream) (head : HttpRequestHead) :
    Action.isRequest (.requestTo stream head) = false := rfl

@[simp]
theorem requestsIn_arrivals (op : Op) (completion : Completion) :
    requestsIn (arrivals op completion) = 0 := by
  unfold arrivals
  split
  · split <;> rfl
  · rfl

theorem requestsIn_eq_zero {actions : List Action} (unparsed : ∀ parsed, .request parsed ∉ actions) :
    requestsIn actions = 0 := by
  rw [requestsIn, List.countP_eq_zero]
  intro action isAction parses
  cases action with
  | request parsed => exact unparsed parsed isAction
  | _ => simp [Action.isRequest] at parses

theorem requestsIn_ends {dest : Peer} {codec : Codec} {ec : Option ErrorCode} {shown : List Action}
    (ends : Ends op completion dest codec next ec shown) : requestsIn shown = 0 := by
  cases ends <;> rfl

end Requests

/-! ## One callback -/

/-- What a callback does to the accounts of a relay that owed so many responses. -/
structure Tallied (owed : ℕ) (relay after : RelaySession) : Prop where
  requests : after.stats.requests + requestsIn relay.out = relay.stats.requests + requestsIn after.out
  single : owed + requestsIn after.out ≤ requestsIn relay.out + 1
  pays : after.pending.countP Op.isResponse + after.owes + requestsIn relay.out ≤
    owed + requestsIn after.out
  okGrows : relay.stats.respOk ≤ after.stats.respOk
  errGrows : relay.stats.respErr ≤ after.stats.respErr
  outcomes : after.stats.respOk + after.stats.respErr ≤
    relay.stats.respOk + relay.stats.respErr + after.pending.countP Op.isResponse
  latencies : after.stats.latCount ≤ relay.stats.latCount + after.pending.countP Op.isResponse

/-- The response that is owed while this callback of a message writer is awaited. -/
def WriteThen.owing : WriteThen → ℕ
  | .requestWritten _ => 1
  | _ => 0

theorem WriteThen.owing_le_one (next : WriteThen) : next.owing ≤ 1 := by
  cases next <;> simp [WriteThen.owing]

/-- The response that is owed while this operation is outstanding. -/
def Op.owing (op : Op) : ℕ := if op.unanswered then 1 else 0

theorem Op.owing_le_one (op : Op) : op.owing ≤ 1 := by
  unfold Op.owing
  split <;> omega

section Messages

variable (dest : Peer) (codec : Codec) (body : MessageBody) (next : WriteThen)

theorem Op.owing_readBody (capacity : ℕ) :
    (Op.readBody dest codec body capacity next).owing = next.owing := by
  cases next <;> rfl

theorem Op.owing_writeBody : (Op.writeBody dest codec body next).owing = next.owing := by
  cases next <;> rfl

theorem Op.owing_finish : (Op.finish dest next).owing = next.owing := by
  cases next <;> rfl

end Messages

section Callbacks

variable {relay after : RelaySession} {owed : ℕ}

/-- A callback that parses nothing, answers nothing and counts nothing. -/
theorem Tallied.quiet (requests : after.stats.requests = relay.stats.requests)
    (ok : after.stats.respOk = relay.stats.respOk) (err : after.stats.respErr = relay.stats.respErr)
    (latencies : after.stats.latCount = relay.stats.latCount)
    (unparsed : requestsIn after.out = requestsIn relay.out) (atMostOne : owed ≤ 1)
    (unanswered : after.pending.countP Op.isResponse = 0) (stillOwes : after.owes ≤ owed) :
    Tallied owed relay after := by
  refine ⟨?_, ?_, ?_, ?_, ?_, ?_, ?_⟩ <;> omega

/-- Such a callback that starts one operation. -/
theorem Tallied.awaits (idle : relay.pending = []) (pending : after.pending = relay.pending ++ [op])
    (requests : after.stats.requests = relay.stats.requests)
    (ok : after.stats.respOk = relay.stats.respOk) (err : after.stats.respErr = relay.stats.respErr)
    (latencies : after.stats.latCount = relay.stats.latCount)
    (unparsed : requestsIn after.out = requestsIn relay.out) (atMostOne : owed ≤ 1)
    (unanswered : op.isResponse = false) (stillOwes : op.owing ≤ owed) :
    Tallied owed relay after := by
  rw [idle, List.nil_append] at pending
  apply Tallied.quiet requests ok err latencies unparsed atMostOne
  · simp [pending, unanswered]
  · rw [owes, pending, List.countP_singleton]
    exact stillOwes

/-- What was done before the accounts are looked at does not matter to them. -/
theorem Tallied.trans_out {out : List Action} (tallied : Tallied owed { relay with out } after)
    (unparsed : requestsIn out = requestsIn relay.out) : Tallied owed relay after := by
  rcases tallied with ⟨requests, single, pays, okGrows, errGrows, outcomes, latencies⟩
  simp only [unparsed] at requests single pays
  exact ⟨requests, single, pays, okGrows, errGrows, outcomes, latencies⟩

theorem tallied_teardown (idle : relay.pending = []) (atMostOne : owed ≤ 1) :
    Tallied owed relay relay.teardown := by
  refine teardown_cases relay (fun _ => ?_) fun _ => ?_
  · apply Tallied.quiet rfl rfl rfl rfl rfl atMostOne <;> simp [owes, idle]
  · refine Tallied.quiet rfl rfl rfl rfl ?_ atMostOne ?_ ?_ <;> simp [owes, idle]

theorem AfterResponse.tallied (continues : relay.AfterResponse after) (idle : relay.pending = []) :
    Tallied 0 relay after := by
  cases continues with
  | nextRequest idleTimer running keepAlive overTcp serving =>
    refine Tallied.awaits idle rfl rfl rfl rfl rfl ?_ (by omega) ?_ ?_ <;>
      simp [Action.isRequest, Op.isResponse, Op.owing, Op.unanswered]
  | shutDown running last =>
    refine Tallied.awaits idle rfl rfl rfl rfl rfl ?_ (by omega) ?_ ?_ <;>
      simp [Action.isRequest, Op.isResponse, Op.owing, Op.unanswered]
  | drain running overQuic serving =>
    refine Tallied.awaits idle rfl rfl rfl rfl rfl ?_ (by omega) ?_ ?_ <;>
      simp [Action.isRequest, Op.isResponse, Op.owing, Op.unanswered]
  | finished done => apply Tallied.quiet <;> simp [owes, idle]

/-- The response that `write_error` starts is owed, by a request parsed before or just now. -/
theorem tallied_writeError {before : RelaySession} (idle : relay.pending = [])
    (same : relay.stats.respOk = before.stats.respOk ∧ relay.stats.respErr = before.stats.respErr ∧
      relay.stats.latCount = before.stats.latCount)
    (requests : relay.stats.requests + requestsIn before.out =
      before.stats.requests + requestsIn relay.out)
    (due : owed + requestsIn relay.out = requestsIn before.out + 1) (status : HttpStatus)
    (message : Text.Bytes) : Tallied owed before (relay.writeError status message) := by
  rcases same with ⟨ok, err, latencies⟩
  rw [writeError, writeResponse, writeMessage_eq]
  constructor <;> simp [owes, idle, Op.isResponse, Op.unanswered] <;> omega

theorem tallied_writeResponse {before : RelaySession} (idle : relay.pending = [])
    (counted : before.stats.respOk ≤ relay.stats.respOk ∧
      before.stats.respErr ≤ relay.stats.respErr ∧
      relay.stats.respOk + relay.stats.respErr ≤ before.stats.respOk + before.stats.respErr + 1 ∧
      relay.stats.latCount ≤ before.stats.latCount + 1)
    (requests : relay.stats.requests = before.stats.requests)
    (unparsed : requestsIn relay.out = requestsIn before.out) (head : HttpResponseHead)
    (body : Option MessageBody) (answers : ∀ retryAllowed, next ≠ .requestWritten retryAllowed) :
    Tallied 1 before (relay.writeResponse head body next) := by
  rcases counted with ⟨ok, err, outcomes, latencies⟩
  have settled : Op.unanswered (.writeHead .client relay.clientCodec body next) = false := by
    cases next with
    | requestWritten retryAllowed => exact absurd rfl (answers retryAllowed)
    | _ => rfl
  rw [writeResponse, writeMessage_eq]
  constructor <;> simp [owes, idle, Op.isResponse, settled] <;> omega

theorem Resumes.tallied {ec : Option ErrorCode} (resumes : relay.Resumes next ec after)
    (idle : relay.pending = []) : Tallied next.owing relay after := by
  have atMostOne := next.owing_le_one
  cases resumes with
  | awaitsResponse retryAllowed idleTimer stream isBackend =>
    refine Tallied.awaits idle rfl rfl rfl rfl rfl ?_ atMostOne ?_ ?_
    · simp
    · cases relay.backendCodec <;> rfl
    · cases relay.backendCodec <;> simp [parseOp, Op.owing, Op.unanswered, WriteThen.owing]
  | losesBackend retryAllowed idleTimer gone =>
    refine Tallied.quiet rfl rfl rfl rfl ?_ atMostOne ?_ ?_ <;> simp [owes, idle, Action.isRequest]
  | reconnects ec pooled bodiless =>
    refine Tallied.awaits idle rfl rfl rfl rfl rfl ?_ atMostOne ?_ ?_ <;>
      simp [Action.isRequest, Op.isResponse, Op.owing, Op.unanswered, WriteThen.owing]
  | writeFails retryAllowed ec final =>
    apply tallied_writeError
    · exact idle
    · exact ⟨rfl, rfl, rfl⟩
    · simp
    · simp [WriteThen.owing, Nat.add_comm]
  | exchanged keepAlive ec continues =>
    have tallied := continues.tallied idle
    rcases tallied with ⟨requests, single, pays, okGrows, errGrows, outcomes, latencies⟩
    simp only [requestsIn_append, requestsIn_finishActions, Nat.add_zero] at requests single pays
    exact ⟨requests, single, pays, okGrows, errGrows, outcomes, latencies⟩
  | rejected ec continues => exact continues.tallied idle
  | bridges next stream fromPool isBackend opens =>
    refine Tallied.quiet rfl rfl rfl rfl ?_ atMostOne ?_ ?_ <;>
      simp [owes, idle, Action.isRequest, Op.isResponse, Op.unanswered]
  | bridgesNothing next fromPool gone opens =>
    refine Tallied.quiet rfl rfl rfl rfl ?_ atMostOne ?_ ?_ <;> simp [owes, idle, Action.isRequest]
  | bridgeFails next ec opens => exact tallied_teardown idle atMostOne

/-- A message that goes on or ends belongs to the operation that has completed. -/
theorem Advances.owing_eq {dest : Peer} {codec : Codec} {body : MessageBody}
    {bodyStep : BodySource × BodyStep}
    (advances : Advances op completion dest codec body next bodyStep) : op.owing = next.owing := by
  cases advances <;> cases next <;> rfl

theorem Ends.owing_eq {dest : Peer} {codec : Codec} {ec : Option ErrorCode} {shown : List Action}
    (ends : Ends op completion dest codec next ec shown) : op.owing = next.owing := by
  cases ends with
  | headFails | headIsAll | pieceFails => cases next <;> rfl
  | bodyFails advances fails => exact advances.owing_eq
  | bodyEnds advances exhausted => exact advances.owing_eq

theorem owing_of_requestProgress {progress : H1Codec.Progress ParsedRequest}
    (requesting : requestProgress op completion = some progress) : op.owing = 0 := by
  unfold requestProgress at requesting
  split at requesting
  · rfl
  · rfl
  · rfl
  · simp at requesting

theorem owing_of_responseProgress {stream : TransportStream}
    {progress : H1Codec.Progress ParsedResponse}
    (responding : responseProgress stream op completion = some progress) : op.owing = 1 := by
  rcases op_of_responseProgress responding with ⟨buf, rfl⟩ | rfl
  · rfl
  · rfl

theorem counted_countResponse (stats : Stats) (statusCode : ℤ) :
    stats.respOk ≤ (stats.countResponse statusCode).respOk ∧
      stats.respErr ≤ (stats.countResponse statusCode).respErr ∧
      (stats.countResponse statusCode).respOk + (stats.countResponse statusCode).respErr ≤
        stats.respOk + stats.respErr + 1 ∧
      (stats.countResponse statusCode).latCount ≤ stats.latCount + 1 := by
  unfold Stats.countResponse
  split <;> simp <;> omega

theorem requests_countResponse (stats : Stats) (statusCode : ℤ) :
    (stats.countResponse statusCode).requests = stats.requests := by
  unfold Stats.countResponse
  split <;> rfl

theorem tallied_answered (idle : relay.pending = []) {stream : TransportStream}
    {parsed : ParsedResponse} {idleTimer : IdleTimer} {head : HttpResponseHead}
    {body : Option MessageBody} (answers : ∀ retryAllowed, next ≠ .requestWritten retryAllowed) :
    Tallied 1 relay ((relay.answered stream parsed idleTimer).writeResponse head body next) := by
  apply tallied_writeResponse
  · exact idle
  · exact counted_countResponse _ _
  · exact requests_countResponse _ _
  · simp [answered, Action.isRequest]
  · exact answers

theorem Handled.tallied (handled : relay.Handled op completion after) (idle : relay.pending = []) :
    Tallied op.owing relay after := by
  have atMostOne := op.owing_le_one
  cases handled with
  | requestMore progress =>
    refine Tallied.awaits idle rfl rfl rfl rfl rfl ?_ atMostOne ?_ ?_ <;>
      simp [Action.isRequest, Op.isResponse, Op.owing, Op.unanswered]
  | requestFails ec progress => exact tallied_teardown idle atMostOne
  | requestForwarded progress idleTimer connects =>
    rw [owing_of_requestProgress progress]
    constructor <;> simp [connect, await, emit, served, owes, idle, Action.isRequest,
      Op.isResponse, Op.unanswered] <;> omega
  | requestRejected progress idleTimer rejects =>
    rw [owing_of_requestProgress progress]
    apply tallied_writeError
    · exact idle
    · exact ⟨rfl, rfl, rfl⟩
    · simp [served, Action.isRequest]
      omega
    · simp [served, Action.isRequest]
  | connectFails target next ec message =>
    apply tallied_writeError
    · exact idle
    · exact ⟨rfl, rfl, rfl⟩
    · rfl
    · simp [Op.owing, Op.unanswered, Nat.add_comm]
  | requestSent target head body stream endpoint fromPool idleTimer =>
    refine Tallied.awaits idle rfl rfl rfl rfl rfl ?_ atMostOne ?_ ?_
    · simp
    · rfl
    · exact le_rfl
  | tunnelAccepted target stream endpoint fromPool =>
    apply tallied_writeResponse
    · exact idle
    · exact ⟨le_rfl, le_rfl, by simp, by simp⟩
    · rfl
    · rfl
    · simp
  | requestResent target stream endpoint fromPool head kept =>
    refine Tallied.awaits idle rfl rfl rfl rfl rfl ?_ atMostOne ?_ ?_
    · simp
    · rfl
    · exact le_rfl
  | bodyAsks advances asks =>
    refine Tallied.awaits idle rfl rfl rfl rfl rfl ?_ atMostOne ?_ ?_
    · simp [Action.isRequest]
    · rfl
    · rw [advances.owing_eq, Op.owing_readBody]
  | pieceSent advances delivers nonempty =>
    refine Tallied.awaits idle rfl rfl rfl rfl rfl ?_ atMostOne ?_ ?_
    · simp [Action.isRequest]
    · rfl
    · rw [advances.owing_eq, Op.owing_writeBody]
  | finishes ends =>
    refine Tallied.awaits idle rfl rfl rfl rfl rfl ?_ atMostOne ?_ ?_
    · simp [Action.isRequest, requestsIn_ends ends]
    · rfl
    · rw [ends.owing_eq, Op.owing_finish]
  | messageEnds ends resumes =>
    rw [ends.owing_eq]
    apply (resumes.tallied idle).trans_out
    simp [Action.isRequest, requestsIn_ends ends]
  | finished dest next ec resumes =>
    rw [Op.owing_finish]
    apply (resumes.tallied idle).trans_out
    simp [Action.isRequest]
  | responseMore progress =>
    refine Tallied.awaits idle rfl rfl rfl rfl rfl ?_ atMostOne ?_ ?_
    · simp [Action.isRequest]
    · rfl
    · exact (owing_of_responseProgress progress).ge
  | responseFails ec progress =>
    apply tallied_writeError
    · exact idle
    · exact ⟨rfl, rfl, rfl⟩
    · simp
    · simp [owing_of_responseProgress progress, Nat.add_comm]
  | upgradeAnswered progress idleTimer upgrades =>
    rw [owing_of_responseProgress progress]
    exact tallied_answered idle (by simp)
  | responseAnswered progress idleTimer plain =>
    rw [owing_of_responseProgress progress]
    exact tallied_answered idle (by simp)
  | drainReads data examined idleTimer running =>
    refine Tallied.awaits idle rfl rfl rfl rfl rfl ?_ atMostOne ?_ ?_ <;>
      simp [Action.isRequest, Op.isResponse, Op.owing, Op.unanswered]
  | drainEnds completion => exact tallied_teardown idle atMostOne

end Callbacks

/-! ## One step -/

/-- What a step does to the accounts. -/
structure Accounted (relay : RelaySession) (input : Input) (next : RelaySession)
    (actions : List Action) : Prop where
  requests : next.stats.requests = relay.stats.requests + requestsIn actions
  single : relay.owes + requestsIn actions ≤ 1
  pays : relay.responses input next + next.owes ≤ relay.owes + requestsIn actions
  okGrows : relay.stats.respOk ≤ next.stats.respOk
  errGrows : relay.stats.respErr ≤ next.stats.respErr
  outcomes : next.stats.respOk + next.stats.respErr ≤
    relay.stats.respOk + relay.stats.respErr + relay.responses input next
  latencies : next.stats.latCount ≤ relay.stats.latCount + relay.responses input next

section Steps

variable {relay next : RelaySession} {input : Input} {actions : List Action}

theorem owing_of_carries {src dst : Peer} (carries : op.Carries src dst) :
    op.unanswered = false ∧ op.isResponse = false := by
  rcases carries with rfl | rfl
  · exact ⟨rfl, rfl⟩
  · exact ⟨rfl, rfl⟩

theorem owes_of_pending (waits : relay.pending = [op]) : relay.owes = op.owing := by
  rw [owes, waits, List.countP_singleton]
  rfl

theorem owes_eq_zero (clear : ∀ op ∈ relay.pending, op.unanswered = false) : relay.owes = 0 := by
  rw [owes, List.countP_eq_zero]
  intro op opMem owesOne
  simp [clear op opMem] at owesOne

theorem Control.owes_le_one (control : relay.Control) (alive : relay.crashed = false) :
    relay.owes ≤ 1 := by
  cases control with
  | waiting op alive pending awaits =>
    rw [owes_of_pending pending]
    exact op.owing_le_one
  | bridged stream up down alive phase backend pending carriesUp carriesDown =>
    rw [owes_eq_zero]
    · omega
    · rcases pending with pending | pending <;>
        simp [pending, owing_of_carries carriesUp, owing_of_carries carriesDown]
  | finished done alive pending =>
    rw [owes_eq_zero]
    · omega
    · rcases pending with pending | ⟨left, src, dst, pending, carries⟩
      · simp [pending]
      · simp [pending, owing_of_carries carries]
  | crashed dead => simp [alive] at dead

/-- A step that leaves the accounts and what is outstanding alone. -/
theorem Accounted.still (same : next.stats = relay.stats) (unparsed : requestsIn actions = 0)
    (outstanding : next.pending = input.left relay.pending) (atMostOne : relay.owes ≤ 1)
    (owesLess : next.owes ≤ relay.owes) : Accounted relay input next actions := by
  have silent : relay.responses input next = 0 := by
    rw [responses, started, outstanding, List.drop_length, List.countP_nil]
  constructor <;> simp only [same, silent, unparsed] <;> omega

/-- A step in which one direction of a tunnel goes on. -/
theorem Accounted.carried (same : next.stats = relay.stats) (unparsed : requestsIn actions = 0)
    (carrying : ∀ op ∈ next.pending, ∃ src dst, op.Carries src dst) (atMostOne : relay.owes ≤ 1) :
    Accounted relay input next actions := by
  have settled : next.owes = 0 := by
    apply owes_eq_zero
    intro op opMem
    rcases carrying op opMem with ⟨src, dst, carries⟩
    exact (owing_of_carries carries).1
  have silent : relay.responses input next = 0 := by
    rw [responses, List.countP_eq_zero]
    intro op opMem answers
    rcases carrying op (List.mem_of_mem_drop opMem) with ⟨src, dst, carries⟩
    simp [owing_of_carries carries] at answers
  constructor <;> simp only [same, silent, unparsed, settled] <;> omega

/-- A callback of the only outstanding operation. -/
theorem Tallied.accounted {after : RelaySession} (waits : relay.pending = [op])
    (tallied : Tallied op.owing { relay with pending := [], out := arrivals op completion } after) :
    Accounted relay (.complete op completion) { after with out := [] } after.out := by
  rcases tallied with ⟨requests, single, pays, okGrows, errGrows, outcomes, latencies⟩
  simp only [requestsIn_arrivals] at requests single pays
  have all : relay.responses (.complete op completion) { after with out := [] } =
      after.pending.countP Op.isResponse := by
    rw [responses, started, Input.left, waits, List.erase_cons_head]
    rfl
  have unpaid : owes { after with out := [] } = after.owes := rfl
  rw [← owes_of_pending waits] at single pays
  refine ⟨?_, ?_, ?_, okGrows, errGrows, ?_, ?_⟩
  · omega
  · omega
  · omega
  · exact all.symm ▸ outcomes
  · exact all.symm ▸ latencies

theorem requestsIn_teardown : requestsIn relay.teardown.out = requestsIn relay.out := by
  cases running : relay.done with
  | true => rw [teardown_of_done _ running]
  | false => simp [teardown_eq _ running]

theorem stats_teardown (relay : RelaySession) : relay.teardown.stats = relay.stats := by
  exact teardown_cases relay (fun _ => rfl) fun _ => rfl

theorem Outcome.accounted {after : RelaySession} (outcome : relay.Outcome input after)
    (atMostOne : relay.owes ≤ 1) : Accounted relay input { after with out := [] } after.out := by
  cases outcome with
  | exchange waits awaits fits handled => exact (handled.tallied rfl).accounted waits
  | tunnel bridging holds directions carries outstanding fits carried =>
    have stays := fun op opMem => (carried.carriesOn rfl directions op opMem).exists_carries
    cases carried with
    | forwards data examined nonempty idleTimer running =>
      refine Accounted.carried rfl ?_ stays atMostOne
      simp [Action.isRequest]
    | reads idleTimer running =>
      refine Accounted.carried rfl ?_ stays atMostOne
      simp [Action.isRequest]
    | ends =>
      refine Accounted.carried (stats_teardown _) ?_ stays atMostOne
      simp [requestsIn_teardown]
  | ignored done carries outstanding fits =>
    apply Accounted.carried
    · rfl
    · exact requestsIn_arrivals _ _
    · simp
    · exact atMostOne
  | expired kick armed => exact .still rfl rfl rfl atMostOne le_rfl
  | timedOut kick expired queued =>
    apply Accounted.still
    · exact stats_teardown _
    · simp [requestsIn_teardown, Action.isRequest]
    · exact pending_teardown _
    · exact atMostOne
    · simp [owes, pending_teardown]
  | shutsDown running waiting => exact .still rfl rfl rfl atMostOne le_rfl
  | drains running busy => exact .still rfl rfl rfl atMostOne le_rfl
  | alreadyClosed done => exact .still rfl rfl rfl atMostOne le_rfl

theorem accounted_of_step (control : relay.Control)
    (taken : relay.step input = some (next, actions)) : Accounted relay input next actions := by
  have alive : relay.crashed = false := (stepped_of_step taken).choose_spec.1
  rcases outcome_of_step control taken with ⟨after, outcome, -, rfl, rfl⟩
  exact outcome.accounted (control.owes_le_one alive)

end Steps

/-! ## Whole runs -/

/-- A step of a relay, with the relay before and after it. -/
abbrev Transition := Machine.Transition RelaySession Input Action

/-- Everything that the steps of a run did. -/
def performed (log : List Transition) : List Action := log.flatMap fun transition => transition.actions

/-- How often the steps of a run call `async_write_response`. -/
def responsesIn (log : List Transition) : ℕ :=
  (log.map fun transition => transition.source.responses transition.input transition.target).sum

/-- From the request that a step parses up to the next one, at most one response is written
and at most one outcome is counted. -/
def AnswersOnce (relay : RelaySession) : Prop :=
  ∀ input opened actions parsed log last,
    relay.step input = some (opened, actions) → .request parsed ∈ actions →
    Runs (logged step) anyInput opened log last →
    (∀ transition ∈ log, ∀ parsed, .request parsed ∉ transition.actions) →
      relay.responses input opened + responsesIn log ≤ 1 ∧
      (last.stats.respOk = relay.stats.respOk ∧ last.stats.respErr = relay.stats.respErr ∨
        last.stats.respOk = relay.stats.respOk + 1 ∧ last.stats.respErr = relay.stats.respErr ∨
        last.stats.respOk = relay.stats.respOk ∧ last.stats.respErr = relay.stats.respErr + 1)

section Runs

variable {relay : RelaySession}

theorem performed_snoc (log : List Transition) (relay : RelaySession) (input : Input)
    (actions : List Action) (next : RelaySession) :
    performed (log ++ [⟨relay, input, actions, next⟩]) = performed log ++ actions := by
  simp [performed]

theorem responsesIn_append (first second : List Transition) :
    responsesIn (first ++ second) = responsesIn first + responsesIn second := by
  simp [responsesIn]

/-- Without a further request, what is written is what was owed. -/
theorem owes_of_runs {log : List Transition} {last : RelaySession} (control : relay.Control)
    (runs : Runs (logged step) anyInput relay log last)
    (unparsed : ∀ transition ∈ log, ∀ parsed, .request parsed ∉ transition.actions) :
    responsesIn log + last.owes ≤ relay.owes ∧ relay.stats.respOk ≤ last.stats.respOk ∧
      relay.stats.respErr ≤ last.stats.respErr ∧
      last.stats.respOk + last.stats.respErr ≤
        relay.stats.respOk + relay.stats.respErr + responsesIn log := by
  suffices kept : last.Control ∧
      ((∀ transition ∈ log, ∀ parsed, .request parsed ∉ transition.actions) →
        responsesIn log + last.owes ≤ relay.owes ∧ relay.stats.respOk ≤ last.stats.respOk ∧
        relay.stats.respErr ≤ last.stats.respErr ∧
        last.stats.respOk + last.stats.respErr ≤
          relay.stats.respOk + relay.stats.respErr + responsesIn log) from kept.2 unparsed
  apply Runs.invariant ?_ ?_ runs
  · refine ⟨control, fun _ => ?_⟩
    simp [responsesIn]
  · rintro log state input next added ⟨control, ih⟩ _ recorded
    rcases logged_eq_some_iff.mp recorded with ⟨actions, taken, rfl⟩
    refine ⟨control_step control taken, ?_⟩
    intro unparsed
    simp only [List.forall_mem_append, List.forall_mem_singleton] at unparsed
    have earlier := ih unparsed.1
    have accounted := accounted_of_step control taken
    have none : requestsIn actions = 0 := requestsIn_eq_zero unparsed.2
    have pays := accounted.pays
    have okGrows := accounted.okGrows
    have errGrows := accounted.errGrows
    have outcomes := accounted.outcomes
    have total : responsesIn (log ++ [⟨state, input, actions, next⟩]) =
        responsesIn log + state.responses input next := by
      rw [responsesIn_append]
      rfl
    omega

theorem Reachable.answersOnce (reachable : relay.Reachable) : relay.AnswersOnce := by
  intro input opened actions parsed log last taken isParsed runs unparsed
  have control := reachable.control
  have accounted := accounted_of_step control taken
  have later := owes_of_runs (control_step control taken) runs unparsed
  have pays := accounted.pays
  have single := accounted.single
  have okGrows := accounted.okGrows
  have errGrows := accounted.errGrows
  have outcomes := accounted.outcomes
  omega

/-- A request that is still owed a response has been counted and its outcome has not. -/
theorem Reachable.outcomes_le (reachable : relay.Reachable) :
    relay.stats.respOk + relay.stats.respErr + relay.owes ≤ relay.stats.requests ∧
      relay.stats.latCount + relay.owes ≤ relay.stats.requests := by
  apply reachable.invariant
  · intro clientCodec rules idleTimeout
    rcases requestPhase_eq { clientCodec, rules, idleTimeout } with ⟨idleTimer, entered⟩
    rw [start, entered]
    cases clientCodec <;> simp [owes, parseOp, Op.unanswered]
  · intro relay input next actions control invariant taken
    have accounted := accounted_of_step control taken
    have requests := accounted.requests
    have pays := accounted.pays
    have outcomes := accounted.outcomes
    have latencies := accounted.latencies
    omega

/--
One outcome per exchange: a relay answers each request at most once and counts at most one
outcome for it, so all relays together count no more outcomes and latencies than requests.
-/
theorem one_outcome_per_exchange {ι : Type*} (relays : ι → RelaySession) (all : Finset ι)
    (reachable : ∀ i ∈ all, (relays i).Reachable) :
    (∀ i ∈ all, (relays i).AnswersOnce) ∧
      ∑ i ∈ all, ((relays i).stats.respOk + (relays i).stats.respErr) ≤
        ∑ i ∈ all, (relays i).stats.requests ∧
      ∑ i ∈ all, (relays i).stats.latCount ≤ ∑ i ∈ all, (relays i).stats.requests := by
  refine ⟨?_, ?_, ?_⟩
  · intro i isRelay
    exact (reachable i isRelay).answersOnce
  · apply Finset.sum_le_sum
    intro i isRelay
    have outcomes := (reachable i isRelay).outcomes_le
    omega
  · apply Finset.sum_le_sum
    intro i isRelay
    have outcomes := (reachable i isRelay).outcomes_le
    omega

/-- A request without a route is answered by the relay itself. -/
theorem one_outcome_per_exchange_rejected :
    ∃ relay : RelaySession, relay.Reachable ∧ relay.stats.requests = 1 ∧
      relay.stats.respErr = 1 ∧ relay.AnswersOnce := by
  have reached : (run step (fun _ _ => true) (start .h1 [] 0)
      [.complete (.readHead .client []) (.read (.ok (Text.ascii "GET / HTTP/1.0\r\n\r\n")) 0)]).any
        (fun last => decide (last.1.stats.requests = 1 ∧ last.1.stats.respErr = 1)) = true := by
    decide +kernel
  rcases exists_runs_any reached with ⟨trace, relay, runs, requests, errors⟩
  have reachable : relay.Reachable := ⟨.h1, [], 0, trace, runs⟩
  have outcome := one_outcome_per_exchange (fun _ : Unit => relay) {()} fun _ _ => reachable
  exact ⟨relay, reachable, requests, errors, outcome.1 () (Finset.mem_singleton_self ())⟩

end Runs

end RelaySession

end ReverseProxy
