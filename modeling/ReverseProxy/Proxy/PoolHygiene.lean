import ReverseProxy.Proxy.Placement
import ReverseProxy.Relay.Closed
import ReverseProxy.Relay.ResponseBoundary

/-!
# What the next borrower of a connection finds

A TCP connection goes from the pool to one relay and back, and at each time there is one
place where it is.  The relay that has it keeps to the boundary behind the responses on
it, so a connection that lies in the pool is at a message boundary, and a backend that
answers its requests in order answers the next borrower's request next.
-/

namespace ReverseProxy

open Machine

namespace Proxy

open Text RelaySession UpstreamPool

variable {ι : Type}

/-- The connection is in this one place, and at a message boundary in the hands of the pool. -/
structure Owned (stream : TransportStream) (view : StreamView) (proxy : Proxy ι)
    (owner : Option (Owner ι)) : Prop where
  reached : ∀ i, (proxy.relays i).Reaches stream → owner = some (.relay i)
  shelved : stream ∈ proxy.pool.streams → owner = some .shelf
  once : proxy.pool.streams.count stream ≤ 1
  promised : ∀ i checkout, proxy.checkouts i = some checkout → stream ∈ checkout.streams →
    owner = some (.counter i)
  clean : (owner = some .shelf ∨ ∃ i, owner = some (.counter i)) → view.asked = true →
    view.AtBoundary
  known : owner ≠ none → stream ∈ proxy.opened
  fresh : stream ∉ proxy.opened → view.asked = false

theorem Owned.placed {stream : TransportStream} {view : StreamView} {proxy : Proxy ι}
    {owner : Option (Owner ι)} (owned : Owned stream view proxy owner) :
    Placed stream proxy owner :=
  ⟨owned.reached, owned.shelved, owned.once, owned.promised, owned.known⟩

theorem Placed.owned {stream : TransportStream} {view : StreamView} {proxy : Proxy ι}
    {owner : Option (Owner ι)} (placed : Placed stream proxy owner)
    (clean : (owner = some .shelf ∨ ∃ i, owner = some (.counter i)) → view.asked = true →
      view.AtBoundary)
    (fresh : stream ∉ proxy.opened → view.asked = false) : Owned stream view proxy owner :=
  ⟨placed.reached, placed.shelved, placed.once, placed.promised, clean, placed.known, fresh⟩

/-! ## Steps -/

/-- The connection in the hands of the relays and the pool. -/
structure Hygiene (stream : TransportStream) (view : StreamView) (proxy : Proxy ι) : Prop where
  control : ∀ i, (proxy.relays i).Control
  expects : ∀ i, ∀ op ∈ (proxy.relays i).pending, (proxy.relays i).Expects stream view op
  owned : ∃ owner, Owned stream view proxy owner

section Steps

variable {stream : TransportStream} {view : StreamView} {proxy : Proxy ι}
  {owner : Option (Owner ι)} {relay after : RelaySession}

theorem watch_of_not_mem {action : Action} (unused : stream ∉ action.streams) :
    view.watch stream action = view := by
  cases action with
  | requestTo stream' head =>
    have differs : stream' ≠ stream := by
      rintro rfl
      simp [Action.streams] at unused
    simp [StreamView.watch, differs]
  | received peer data =>
    cases peer with
    | client => rfl
    | backend stream' =>
      have differs : stream' ≠ stream := by
        rintro rfl
        simp [Action.streams, Peer.streams] at unused
      simp [StreamView.watch, differs]
  | _ => rfl

theorem foldl_watch_of_not_mem {actions : List Action}
    (unused : ∀ action ∈ actions, stream ∉ action.streams) :
    actions.foldl (StreamView.watch stream) view = view := by
  induction actions with
  | nil => rfl
  | cons action actions ih =>
    rw [List.foldl_cons, watch_of_not_mem (unused action (by simp))]
    exact ih fun later laterMem => unused later (by simp [laterMem])

/-- A relay that does not have the connection shows nothing of it. -/
theorem Owned.unseen (owned : Owned stream view proxy owner) {i : ι} {input : Input}
    (outcome : (proxy.relays i).Outcome input after) (others : stream ∉ input.streams)
    (elsewhere : owner ≠ some (.relay i)) :
    after.out.foldl (StreamView.watch stream) view = view := by
  apply foldl_watch_of_not_mem
  intro action actionMem used
  rcases outcome.within.out action actionMem stream used with reaches | brought
  · exact owned.placed.not_reaches elsewhere reaches
  · exact others brought

variable [DecidableEq ι]

/-- A callback of a relay that reaches the connection has it before and after. -/
theorem Owned.advance (owned : Owned stream view proxy owner) {i : ι} {input : Input}
    (outcome : (proxy.relays i).Outcome input after) (answers : proxy.Answers i input = true) :
    ∃ owner', Owned stream (after.out.foldl (StreamView.watch stream) view)
        (proxy.advance i input { after with out := [] }) owner' ∧
      ((proxy.relays i).Reaches stream → owner' = some (.relay i)) := by
  by_cases brought : stream ∈ input.streams
  · have handed := owned.placed.advance_handed outcome answers brought
    refine ⟨_, handed.owned ?_ ?_, fun _ => rfl⟩
    · simp
    · exact fun unopened => absurd (List.mem_append_left _ brought) unopened
  · have unseen := owned.unseen outcome brought
    refine ⟨owner, (owned.placed.advance_other outcome brought).owned ?_ ?_, owned.reached i⟩
    · intro pooled
      rw [unseen (by rcases pooled with rfl | ⟨j, rfl⟩ <;> simp)]
      exact owned.clean pooled
    · intro unopened
      have unknown : stream ∉ proxy.opened := fun known =>
        unopened (List.mem_append_right _ known)
      rw [unseen (by rintro rfl; exact unknown (owned.known (by simp)))]
      exact owned.fresh unknown

theorem Owned.serve_all {i : ι} {held : Option TransportStream} (deals : Deals held after)
    (owned : Owned stream view proxy owner) (isRelay : proxy.relays i = { after with out := [] })
    (isOwner : held = some stream → owner = some (.relay i))
    (clean : ∀ endpoint before later,
      after.out = before ++ .release endpoint stream :: later → Streamless later → view.AtBoundary) :
    ∃ owner', Owned stream view (after.out.foldl (serve i) proxy) owner' := by
  rcases owned.placed.serve_all deals isRelay isOwner with ⟨owner', placed, moves⟩
  refine ⟨owner', placed.owned ?_ ?_⟩
  · intro pooled
    cases moves with
    | stays => exact owned.clean pooled
    | handedOut => exact owned.clean (.inl rfl)
    | released endpoint before later asks streamless =>
      exact fun _ => clean endpoint before later asks streamless
  · rw [opened_foldl_serve]
    exact owned.fresh

/-- A release that has been checked is at the boundary at the end of its step, too. -/
theorem atBoundary_of_release {actions : List Action} (overTcp : stream.protocol = .TCP)
    (passes : Always (StreamView.watch stream) (StreamCheck stream) view actions)
    {endpoint : BackendEndpoint} {before later : List Action}
    (asks : actions = before ++ .release endpoint stream :: later) (streamless : Streamless later) :
    (actions.foldl (StreamView.watch stream) view).AtBoundary := by
  subst asks
  rw [always_append] at passes
  have released := passes.2.1 rfl overTcp
  rw [List.foldl_append, List.foldl_cons, (streamless.ignored stream _).2]
  exact released

theorem Hygiene.step (hygiene : Hygiene stream view proxy) (overTcp : stream.protocol = .TCP)
    {input : ι × Input} {next : Proxy ι} {actions : List (ι × Action)}
    (reads : (proxy.relays input.1).ReadsResponses input.2)
    (taken : proxy.step input = some (next, actions)) :
    Always (fun view entry => view.watch stream entry.2)
        (fun view entry => StreamCheck stream view entry.2) view actions ∧
      Hygiene stream (actions.foldl (fun view entry => view.watch stream entry.2) view) next := by
  rcases input with ⟨i, input⟩
  rcases exists_outcome_of_step hygiene.control taken with
    ⟨after, outcome, controlled, answers, rfl, rfl⟩
  rcases hygiene.owned with ⟨owner, owned⟩
  have ready : stream ∈ input.streams → view.asked = true → view.AtBoundary := by
    intro brought asked
    rcases connection_of_outcome outcome brought with ⟨target, _, endpoint, fromPool, rfl⟩
    rcases owned.placed.handed_over answers with isCounter | ⟨-, unopened⟩
    · exact owned.clean (.inr ⟨i, isCounter⟩) asked
    · simp [owned.fresh unopened] at asked
  have kept := outcome.kept overTcp reads (hygiene.expects i) ready
  rcases owned.advance outcome answers with ⟨owner', advanced, isOwner⟩
  rw [always_map, List.foldl_map]
  refine ⟨kept.passes, controlled, ?_, ?_⟩
  · intro j op opMem
    rw [relays_foldl_serve] at opMem ⊢
    by_cases same : j = i
    · subst same
      simp only [Proxy.advance, Function.update_self] at opMem ⊢
      exact (kept.expects op opMem).update rfl rfl id
    · simp only [Proxy.advance, Function.update_of_ne same] at opMem ⊢
      by_cases isBackend : (proxy.relays j).backend = some stream
      · -- The stream is with the other relay, so this step does not show it.
        have isOther := owned.reached j (.inl isBackend)
        have others : stream ∉ input.streams := by
          intro brought
          rcases connection_of_outcome outcome brought with ⟨target, _, endpoint, fromPool, rfl⟩
          rcases owned.placed.handed_over answers with isCounter | ⟨isNone, -⟩
          · simp [isOther] at isCounter
          · simp [isOther] at isNone
        rw [owned.unseen outcome others (by simp [isOther, same])]
        exact hygiene.expects j op opMem
      · exact (hygiene.expects j op opMem).other isBackend _
  · have reached : (proxy.relays i).backend = some stream → owner' = some (.relay i) :=
      fun isBackend => isOwner (.inl isBackend)
    refine Owned.serve_all outcome.deals advanced ?_ reached ?_
    · simp [Proxy.advance]
    · exact fun endpoint before later => atBoundary_of_release overTcp kept.passes

omit [DecidableEq ι] in
theorem hygiene_start (stream : TransportStream) (sessions : ι → Codec × List Router.Rule × ℕ)
    (endpoints : List BackendEndpoint) : Hygiene stream {} (Proxy.start sessions endpoints) := by
  refine ⟨fun i => control_start _ _ _, fun i => expects_start stream _ _ _, none, ?_⟩
  apply (placed_start stream sessions endpoints).owned
  · simp
  · simp

end Steps

/-! ## Traces -/

section Traces

/-- What a trace shows of a stream. -/
def viewOf (stream : TransportStream) (trace : List (ι × Action)) : StreamView :=
  trace.foldl (fun view entry => view.watch stream entry.2) {}

/-- TCP connections are given back at message boundaries only. -/
def ReleasesClean (trace : List (ι × Action)) : Prop :=
  ∀ before i endpoint stream after,
    trace = before ++ (i, .release endpoint stream) :: after → stream.protocol = .TCP →
      (viewOf stream before).AtBoundary

/-- The methods of the requests that have been written to a stream. -/
def requestsTo (stream : TransportStream) (trace : List (ι × Action)) : List Bytes :=
  trace.filterMap fun
    | (_, .requestTo stream' head) => if stream' = stream then some head.method else none
    | _ => none

/-- All bytes that have been read from a stream. -/
def bytesFrom (stream : TransportStream) (trace : List (ι × Action)) : Bytes :=
  trace.flatMap fun
    | (_, .received (.backend stream') data) => if stream' = stream then data else []
    | _ => []

/-- The peer answers the requests on a stream one after the other, each once it has been asked. -/
structure AnswersInOrder (stream : TransportStream) (answers : List Bytes)
    (trace : List (ι × Action)) : Prop where
  answered : ∀ (k : ℕ) (method : Bytes), (requestsTo stream trace)[k]? = some method →
    ∃ answer, answers[k]? = some answer ∧ Rfc9112.Answer method answer
  causal : ∀ before after, trace = before ++ after →
    bytesFrom stream before <+: (answers.take (requestsTo stream before).length).flatten

/-- What has been read from a stream since its last request is of that request's own answer. -/
def ReadsOwnAnswers (stream : TransportStream) (answers : List Bytes)
    (trace : List (ι × Action)) : Prop :=
  ∀ before after earlier method answer, trace = before ++ after →
    requestsTo stream before = earlier ++ [method] → answers[earlier.length]? = some answer →
      (viewOf stream before).received <+: answer

variable {stream : TransportStream} {answers : List Bytes} {trace : List (ι × Action)}

theorem AnswersInOrder.before {before after : List (ι × Action)}
    (inOrder : AnswersInOrder stream answers (before ++ after)) :
    AnswersInOrder stream answers before := by
  constructor
  · intro k method isMethod
    apply inOrder.answered k method
    rw [requestsTo, List.filterMap_append]
    rcases List.getElem?_eq_some_iff.mp isMethod with ⟨bound, -⟩
    exact (List.getElem?_append_left bound).trans isMethod
  · rintro first second rfl
    exact inOrder.causal first (second ++ after) (List.append_assoc _ _ _)

/-- What has been read from a stream that has been asked, split at the last request. -/
structure Split (stream : TransportStream) (answers : List Bytes) (trace : List (ι × Action))
    (earlier : List Bytes) (method : Bytes) : Prop where
  requests : requestsTo stream trace = earlier ++ [method]
  asked : (viewOf stream trace).asked = true
  isMethod : (viewOf stream trace).method = method
  read : bytesFrom stream trace =
    (answers.take earlier.length).flatten ++ (viewOf stream trace).received

theorem viewOf_append (before after : List (ι × Action)) :
    viewOf stream (before ++ after) =
      after.foldl (fun view entry => view.watch stream entry.2) (viewOf stream before) :=
  List.foldl_append

theorem requestsTo_append (before after : List (ι × Action)) :
    requestsTo stream (before ++ after) = requestsTo stream before ++ requestsTo stream after :=
  List.filterMap_append

theorem bytesFrom_append (before after : List (ι × Action)) :
    bytesFrom stream (before ++ after) = bytesFrom stream before ++ bytesFrom stream after :=
  List.flatMap_append

theorem Split.received_prefix {earlier : List Bytes} {method answer : Bytes}
    (split : Split stream answers trace earlier method)
    (inOrder : AnswersInOrder stream answers trace)
    (isAnswer : answers[earlier.length]? = some answer) :
    (viewOf stream trace).received <+: answer := by
  have causal := inOrder.causal trace [] (List.append_nil _).symm
  rw [split.requests, List.length_append, List.length_singleton, List.take_add_one, isAnswer,
    split.read, List.flatten_append] at causal
  simpa using causal

/-- A further request finds the previous answer read to its end. -/
theorem Split.read_all {earlier : List Bytes} {method : Bytes}
    (split : Split stream answers trace earlier method)
    (inOrder : AnswersInOrder stream answers trace) (boundary : (viewOf stream trace).AtBoundary) :
    bytesFrom stream trace = (answers.take (earlier ++ [method]).length).flatten := by
  have isLast : (requestsTo stream trace)[earlier.length]? = some method := by
    simp [split.requests]
  rcases inOrder.answered earlier.length method isLast with ⟨answer, isAnswer, answers⟩
  rw [StreamView.AtBoundary, split.isMethod] at boundary
  have whole := boundary.eq_answer answers (split.received_prefix inOrder isAnswer)
  rw [split.read, whole, List.length_append, List.length_singleton, List.take_add_one, isAnswer]
  simp

theorem requestsTo_request (trace : List (ι × Action)) (i : ι) (head : HttpRequestHead) :
    requestsTo stream (trace ++ [(i, .requestTo stream head)]) =
      requestsTo stream trace ++ [head.method] := by
  rw [requestsTo_append]
  simp [requestsTo]

/-- Only requests on a stream and reads from it show anything of it. -/
theorem shows_cases (stream : TransportStream) (action : Action) :
    (∃ head, action = .requestTo stream head) ∨
      (∃ data, action = .received (.backend stream) data) ∨
      ∀ (trace : List (ι × Action)) (i : ι),
        requestsTo stream (trace ++ [(i, action)]) = requestsTo stream trace ∧
          bytesFrom stream (trace ++ [(i, action)]) = bytesFrom stream trace ∧
          viewOf stream (trace ++ [(i, action)]) = viewOf stream trace := by
  have silent : (∀ i : ι, requestsTo stream [(i, action)] = []) →
      (∀ i : ι, bytesFrom stream [(i, action)] = []) →
      (∀ view : StreamView, view.watch stream action = view) →
      ∀ (trace : List (ι × Action)) (i : ι),
        requestsTo stream (trace ++ [(i, action)]) = requestsTo stream trace ∧
          bytesFrom stream (trace ++ [(i, action)]) = bytesFrom stream trace ∧
          viewOf stream (trace ++ [(i, action)]) = viewOf stream trace := by
    intro noRequest noBytes sameView trace i
    rw [requestsTo_append, bytesFrom_append, viewOf_append]
    refine ⟨?_, ?_, sameView _⟩
    · rw [noRequest, List.append_nil]
    · rw [noBytes, List.append_nil]
  cases action with
  | requestTo stream' head =>
    by_cases same : stream' = stream
    · exact .inl ⟨head, by rw [same]⟩
    · refine .inr (.inr (silent ?_ (fun _ => rfl) ?_))
      · simp [requestsTo, same]
      · simp [StreamView.watch, same]
  | received peer data =>
    cases peer with
    | client => exact .inr (.inr (silent (fun _ => rfl) (fun _ => rfl) fun _ => rfl))
    | backend stream' =>
      by_cases same : stream' = stream
      · exact .inr (.inl ⟨data, by rw [same]⟩)
      · refine .inr (.inr (silent (fun _ => rfl) ?_ ?_))
        · simp [bytesFrom, same]
        · simp [StreamView.watch, same]
  | _ => exact .inr (.inr (silent (fun _ => rfl) (fun _ => rfl) fun _ => rfl))

/-- Reading on, or leaving the stream alone, does not move the last request. -/
theorem Split.extend {earlier : List Bytes} {method data : Bytes} {later : List (ι × Action)}
    (split : Split stream answers trace earlier method)
    (sameRequests : requestsTo stream later = requestsTo stream trace)
    (isBytes : bytesFrom stream later = bytesFrom stream trace ++ data)
    (isView : viewOf stream later =
      { viewOf stream trace with received := (viewOf stream trace).received ++ data }) :
    Split stream answers later earlier method := by
  refine ⟨?_, ?_, ?_, ?_⟩
  · rw [sameRequests, split.requests]
  · rw [isView, split.asked]
  · rw [isView, split.isMethod]
  · rw [isBytes, split.read, isView, List.append_assoc]

theorem bytesFrom_request (trace : List (ι × Action)) (i : ι) (head : HttpRequestHead) :
    bytesFrom stream (trace ++ [(i, .requestTo stream head)]) = bytesFrom stream trace := by
  rw [bytesFrom_append]
  exact List.append_nil _

theorem viewOf_request (trace : List (ι × Action)) (i : ι) (head : HttpRequestHead) :
    viewOf stream (trace ++ [(i, .requestTo stream head)]) =
      { asked := true, method := head.method } := by
  simp [viewOf_append, StreamView.watch]

theorem split_of_first (none : requestsTo stream trace = [])
    (inOrder : AnswersInOrder stream answers trace) (i : ι) (head : HttpRequestHead) :
    Split stream answers (trace ++ [(i, .requestTo stream head)]) [] head.method := by
  have nothing := inOrder.causal trace [] (List.append_nil _).symm
  rw [none, List.length_nil, List.take_zero, List.flatten_nil, List.prefix_nil] at nothing
  refine ⟨?_, by rw [viewOf_request], by rw [viewOf_request], ?_⟩
  · rw [requestsTo_request, none]
  · rw [bytesFrom_request, nothing, viewOf_request]
    rfl

theorem Split.next {earlier : List Bytes} {method : Bytes}
    (split : Split stream answers trace earlier method)
    (inOrder : AnswersInOrder stream answers trace)
    (boundary : (viewOf stream trace).AtBoundary) (i : ι) (head : HttpRequestHead) :
    Split stream answers (trace ++ [(i, .requestTo stream head)]) (earlier ++ [method])
      head.method := by
  refine ⟨?_, by rw [viewOf_request], by rw [viewOf_request], ?_⟩
  · rw [requestsTo_request, split.requests]
  · rw [bytesFrom_request, split.read_all inOrder boundary, viewOf_request, List.append_nil]

/-- Nothing is read before the first request, and then every request splits what is read. -/
theorem split_of_always (overTcp : stream.protocol = .TCP)
    (passes : Always (fun view entry => view.watch stream entry.2)
      (fun view entry => StreamCheck stream view entry.2) {} trace)
    (inOrder : AnswersInOrder stream answers trace) :
    requestsTo stream trace = [] ∧ (viewOf stream trace).asked = false ∨
      ∃ earlier method, Split stream answers trace earlier method := by
  induction trace using List.reverseRecOn with
  | nil => exact .inl ⟨rfl, rfl⟩
  | append_singleton trace entry ih =>
    rw [always_append] at passes
    have before := inOrder.before
    have known := ih passes.1 before
    rcases entry with ⟨i, action⟩
    -- Whatever is not a request leaves the split where it is.
    have stays : ∀ data,
        requestsTo stream (trace ++ [(i, action)]) = requestsTo stream trace →
        bytesFrom stream (trace ++ [(i, action)]) = bytesFrom stream trace ++ data →
        viewOf stream (trace ++ [(i, action)]) =
          { viewOf stream trace with received := (viewOf stream trace).received ++ data } →
        requestsTo stream (trace ++ [(i, action)]) = [] ∧
            (viewOf stream (trace ++ [(i, action)])).asked = false ∨
          ∃ earlier method, Split stream answers (trace ++ [(i, action)]) earlier method := by
      intro data sameRequests isBytes isView
      rcases known with unasked | ⟨earlier, method, split⟩
      · rw [sameRequests, isView]
        exact .inl unasked
      · exact .inr ⟨earlier, method, split.extend sameRequests isBytes isView⟩
    rcases shows_cases stream action with ⟨head, rfl⟩ | ⟨data, rfl⟩ | silent
    · right
      rcases known with ⟨none, -⟩ | ⟨earlier, method, split⟩
      · exact ⟨[], head.method, split_of_first none before i head⟩
      · have boundary := passes.2.1 rfl overTcp split.asked
        exact ⟨earlier ++ [method], head.method, split.next before boundary i head⟩
    · apply stays data
      · rw [requestsTo_append]
        exact List.append_nil _
      · simp [bytesFrom]
      · simp [viewOf_append, StreamView.watch]
    · rcases silent trace i with ⟨sameRequests, sameBytes, sameView⟩
      apply stays [] sameRequests
      · rw [sameBytes, List.append_nil]
      · rw [sameView, List.append_nil]

theorem readsOwnAnswers_of_always (overTcp : stream.protocol = .TCP)
    (passes : Always (fun view entry => view.watch stream entry.2)
      (fun view entry => StreamCheck stream view entry.2) {} trace)
    (inOrder : AnswersInOrder stream answers trace) : ReadsOwnAnswers stream answers trace := by
  rintro before after earlier method answer rfl isLast isAnswer
  have inOrder' := inOrder.before
  rw [always_append] at passes
  rcases split_of_always overTcp passes.1 inOrder' with ⟨none, -⟩ | ⟨earlier', method', split⟩
  · simp [none] at isLast
  · rw [split.requests] at isLast
    rcases List.append_inj' isLast rfl with ⟨rfl, -⟩
    exact split.received_prefix inOrder' isAnswer

end Traces

section Runs

variable [DecidableEq ι]

/--
In runs of any number of relays over one pool in which responses can be read whole and are
relayed to their end, connections are given back at message boundaries, and what a borrower
reads from a backend that answers in order is of the answer to its own request.
-/
theorem pool_hygiene {sessions : ι → Codec × List Router.Rule × ℕ}
    {endpoints : List BackendEndpoint} {trace : List (ι × Action)} {proxy : Proxy ι}
    (runs : Runs step (fun proxy input => (proxy.relays input.1).ReadsResponses input.2)
      (start sessions endpoints) trace proxy) :
    ReleasesClean trace ∧
      ∀ stream answers, stream.protocol = .TCP → AnswersInOrder stream answers trace →
        ReadsOwnAnswers stream answers trace := by
  have passes : ∀ stream : TransportStream, stream.protocol = .TCP →
      Always (fun view entry => view.watch stream entry.2)
        (fun view entry => StreamCheck stream view entry.2) {} trace := by
    intro stream overTcp
    refine (runs.monitored (hygiene_start stream sessions endpoints) ?_).1
    intro view proxy input next actions hygiene reads taken
    exact hygiene.step overTcp reads taken
  constructor
  · rintro before i endpoint stream after rfl overTcp
    have checked := always_append.mp (passes stream overTcp)
    exact checked.2.1 rfl overTcp
  · intro stream answers overTcp inOrder
    exact readsOwnAnswers_of_always overTcp (passes stream overTcp) inOrder

end Runs

/-- Two relays over a pool with one backend. -/
def twoRelays : Proxy Bool :=
  start (fun _ => (.h1, anyHost, 30)) [⟨ascii "b", ascii "h", 80, .TCP⟩]

/-- The second relay sends a request over the connection that the first one has given back. -/
def borrows : List (Bool × Input) :=
  [(true, .complete (.readHead .client [])
      (.read (.ok (ascii "GET / HTTP/1.1\r\nHost: a\r\n\r\n")) 0)),
    (true, .complete (.connect (.group (ascii "b")) (.useBackend plainHead none))
      (.connected (.ok (⟨1, .TCP⟩, ⟨ascii "b", ascii "h", 80, .TCP⟩, true)))),
    (true, .complete (.writeHead (.backend ⟨1, .TCP⟩) .h1 none (.requestWritten true))
      (.written none))]

/-- A response is relayed to its end, and its connection is used again. -/
def sharedConnection : List (Bool × Input) :=
  let body (remaining : ℕ) : MessageBody := ⟨.backend ⟨1, .TCP⟩, .stream remaining⟩
  (exchangeUpTo (ascii "HTTP/1.1 200 OK\r\nContent-Length: 2\r\n\r\n") ++
    [Input.complete (.writeHead .client .h1 (some (body 2)) (.responseWritten true))
        (.written none),
      .complete (.readBody .client .h1 (body 2) 2 (.responseWritten true))
        (.read (.ok (ascii "hi")) 0),
      .complete (.writeBody .client .h1 (body 0) (.responseWritten true))
        (.written none)]).map (fun input => (false, input)) ++ borrows

theorem pool_hygiene_sharedConnection :
    ∃ trace proxy,
      Runs step (fun proxy input => (proxy.relays input.1).ReadsResponses input.2)
          twoRelays trace proxy ∧
        requestsTo ⟨1, .TCP⟩ trace = [ascii "GET", ascii "GET"] ∧ ReleasesClean trace ∧
        ∀ stream answers, stream.protocol = .TCP → AnswersInOrder stream answers trace →
          ReadsOwnAnswers stream answers trace := by
  have reached : (run step
      (fun proxy input => decide ((proxy.relays input.1).ReadsResponses input.2)) twoRelays
      sharedConnection).any
        (fun last => decide (requestsTo ⟨1, .TCP⟩ last.2 = [ascii "GET", ascii "GET"])) = true := by
    decide +kernel
  rcases exists_runs_of_run reached with ⟨trace, proxy, runs, asked⟩
  exact ⟨trace, proxy, runs, asked, pool_hygiene runs⟩

/-- The client goes away while the response head is written to it. -/
def brokenRelay : List (Bool × Input) :=
  (exchangeUpTo (ascii "HTTP/1.1 200 OK\r\nContent-Length: 5\r\n\r\n") ++
    [Input.complete (.writeHead .client .h1 (some ⟨.backend ⟨1, .TCP⟩, .stream 5⟩)
      (.responseWritten true)) (.written (some .connectionReset))]).map
    (fun input => (false, input)) ++ borrows

/-- The next borrower will read the rest of a response that is not its own. -/
theorem brokenRelay_not_releasesClean :
    ∃ trace proxy, Runs step anyInput twoRelays trace proxy ∧
      (true, .requestTo ⟨1, .TCP⟩ plainHead) ∈ trace ∧ ¬ReleasesClean trace := by
  let cut : StreamView :=
    ⟨true, ascii "GET", ascii "HTTP/1.1 200 OK\r\nContent-Length: 5\r\n\r\n"⟩
  let check : StreamView → Bool × Action → Prop := fun view entry =>
    (match entry.2 with
      | .release _ stream => !(decide (stream = ⟨1, .TCP⟩) && decide (view = cut))
      | _ => true) = true
  have reached : (run step (fun _ _ => true) twoRelays brokenRelay).any
      (fun last => decide ((true, .requestTo ⟨1, .TCP⟩ plainHead) ∈ last.2 ∧
        ¬Always (fun view entry => view.watch ⟨1, .TCP⟩ entry.2) check {} last.2)) =
          true := by
    decide +kernel
  rcases exists_runs_any reached with ⟨trace, proxy, runs, borrowed, shows⟩
  refine ⟨trace, proxy, runs, borrowed, ?_⟩
  intro clean
  apply shows
  rw [always_iff_forall]
  rintro before ⟨i, action⟩ after split
  cases action with
  | release endpoint stream =>
    by_contra unchecked
    simp only [check, Bool.not_eq_true, Bool.not_eq_false', Bool.and_eq_true,
      decide_eq_true_eq] at unchecked
    rcases unchecked with ⟨rfl, isCut⟩
    have boundary := clean before i endpoint _ after split rfl
    rw [viewOf, isCut] at boundary
    have head : Rfc9112.responseHead? cut.received =
        some (200, [(ascii "Content-Length", ascii "5")], []) := by
      decide +kernel
    have framing : Rfc9112.responseFraming cut.method 200
        [(ascii "Content-Length", ascii "5")] = .length 5 := by
      decide +kernel
    exact Rfc9112.not_readsFinal_of_length head (by decide) framing (by decide) boundary
  | _ => exact rfl

end Proxy

end ReverseProxy
