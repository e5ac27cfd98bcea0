import ReverseProxy.Proxy.UpstreamPool

/-!
# Where a connection is

A TCP connection goes from the pool to one relay and back.  At each time there is one place
where it is: with a relay, idle in the pool, or handed out to a relay that has not been called
back yet.
-/

namespace ReverseProxy

namespace Proxy

open Text RelaySession UpstreamPool

variable {ι : Type}

/-- Where a connection can be. -/
inductive Owner (ι : Type) where
  | relay (i : ι)
  | shelf
  /-- Handed out to a relay that has not been called back yet. -/
  | counter (i : ι)

/-- The connection is in this one place. -/
structure Placed (stream : TransportStream) (proxy : Proxy ι) (owner : Option (Owner ι)) :
    Prop where
  reached : ∀ i, (proxy.relays i).Reaches stream → owner = some (.relay i)
  shelved : stream ∈ proxy.pool.streams → owner = some .shelf
  once : proxy.pool.streams.count stream ≤ 1
  promised : ∀ i checkout, proxy.checkouts i = some checkout → stream ∈ checkout.streams →
    owner = some (.counter i)
  known : owner ≠ none → stream ∈ proxy.opened

/-! ## Calls of the pool -/

section Calls

variable {stream : TransportStream} {proxy : Proxy ι} {owner : Option (Owner ι)}

theorem Placed.not_reaches (placed : Placed stream proxy owner) {i : ι}
    (elsewhere : owner ≠ some (.relay i)) : ¬(proxy.relays i).Reaches stream :=
  fun reaches => elsewhere (placed.reached i reaches)

theorem Placed.count_eq (placed : Placed stream proxy owner) (elsewhere : owner ≠ some .shelf) :
    proxy.pool.streams.count stream = 0 :=
  List.count_eq_zero.mpr fun shelved => elsewhere (placed.shelved shelved)

variable [DecidableEq ι]

/-- What relays wait for when one of them asks the pool. -/
theorem checkouts_update {checkouts : ι → Option Checkout} {i j : ι} {new checkout : Checkout}
    (isCheckout : Function.update checkouts i (some new) j = some checkout) :
    checkouts j = some checkout ∨ j = i ∧ new = checkout := by
  by_cases same : j = i
  · subst same
    rw [Function.update_self] at isCheckout
    exact .inr ⟨rfl, Option.some.inj isCheckout⟩
  · rw [Function.update_of_ne same] at isCheckout
    exact .inl isCheckout

/-- `async_connect` may move the connection from the shelf to the counter. -/
theorem Placed.connect_group (placed : Placed stream proxy owner) (i : ι) (backendId : Bytes) :
    ∃ owner', Placed stream (serve i proxy (.connect (.group backendId))) owner' ∧
      (owner' = owner ∨ owner = some .shelf ∧ owner' = some (.counter i)) := by
  have moved := proxy.pool.count_asyncConnect backendId stream
  have once := placed.once
  by_cases handedOut : stream ∈ (proxy.pool.asyncConnect backendId).2.streams
  · have positive := List.count_pos_iff.mpr handedOut
    have onShelf : owner = some .shelf := by
      apply placed.shelved
      rw [← List.count_pos_iff]
      omega
    subst onShelf
    refine ⟨some (.counter i), ⟨?_, ?_, ?_, ?_, ?_⟩, .inr ⟨rfl, rfl⟩⟩
    · intro j reaches
      exact absurd reaches (placed.not_reaches (by simp))
    · intro shelved
      have remaining : 0 < ((proxy.pool.asyncConnect backendId).1.streams).count stream :=
        List.count_pos_iff.mpr shelved
      omega
    · change ((proxy.pool.asyncConnect backendId).1.streams).count stream ≤ 1
      omega
    · intro j checkout isCheckout inCheckout
      rcases checkouts_update isCheckout with isOld | ⟨rfl, -⟩
      · have elsewhere := placed.promised j checkout isOld inCheckout
        simp at elsewhere
      · rfl
    · intro _
      exact placed.known (by simp)
  · have absent := List.count_eq_zero.mpr handedOut
    refine ⟨owner, ⟨placed.reached, ?_, ?_, ?_, placed.known⟩, .inl rfl⟩
    · intro shelved
      have remaining : 0 < ((proxy.pool.asyncConnect backendId).1.streams).count stream :=
        List.count_pos_iff.mpr shelved
      apply placed.shelved
      rw [← List.count_pos_iff]
      omega
    · change ((proxy.pool.asyncConnect backendId).1.streams).count stream ≤ 1
      omega
    · intro j checkout isCheckout inCheckout
      rcases checkouts_update isCheckout with isOld | ⟨-, rfl⟩
      · exact placed.promised j checkout isOld inCheckout
      · exact absurd inCheckout handedOut

theorem Placed.connect (placed : Placed stream proxy owner) (i : ι) (target : ConnectTarget) :
    ∃ owner', Placed stream (serve i proxy (.connect target)) owner' ∧
      (owner' = owner ∨ owner = some .shelf ∧ owner' = some (.counter i)) := by
  cases target with
  | group backendId => exact placed.connect_group i backendId
  | fresh endpoint =>
    refine ⟨owner, ⟨placed.reached, placed.shelved, placed.once, ?_, placed.known⟩, .inl rfl⟩
    intro j checkout isCheckout inCheckout
    rcases checkouts_update isCheckout with isOld | ⟨-, rfl⟩
    · exact placed.promised j checkout isOld inCheckout
    · simp [Checkout.streams] at inCheckout

theorem Placed.release_other (placed : Placed stream proxy owner) (i : ι)
    (endpoint : BackendEndpoint) {other : TransportStream} (differs : stream ≠ other) :
    Placed stream (serve i proxy (.release endpoint other)) owner := by
  have added := proxy.pool.count_release_le endpoint other stream
  rw [if_neg differs] at added
  refine ⟨placed.reached, ?_, added.trans placed.once, placed.promised, placed.known⟩
  intro shelved
  have remaining := List.count_pos_iff.mpr shelved
  apply placed.shelved
  rw [← List.count_pos_iff]
  exact lt_of_lt_of_le remaining added

theorem Placed.release_self {i : ι} (placed : Placed stream proxy (some (.relay i)))
    (endpoint : BackendEndpoint) (gone : ¬(proxy.relays i).Reaches stream) :
    Placed stream (serve i proxy (.release endpoint stream)) (some .shelf) := by
  have added := proxy.pool.count_release_le endpoint stream stream
  rw [if_pos rfl, placed.count_eq (by simp)] at added
  refine ⟨?_, fun _ => rfl, added, ?_, fun _ => placed.known (by simp)⟩
  · intro j reaches
    have isOwner := placed.reached j reaches
    simp only [Option.some.injEq, Owner.relay.injEq] at isOwner
    subst isOwner
    exact absurd reaches gone
  · intro j checkout isCheckout inCheckout
    have elsewhere := placed.promised j checkout isCheckout inCheckout
    simp at elsewhere

theorem foldl_serve (i : ι) (actions : List Action) (proxy : Proxy ι) :
    actions.foldl (serve i) proxy = (calls actions).foldl (serve i) proxy := by
  induction actions generalizing proxy with
  | nil => rfl
  | cons action actions ih =>
    cases isCall : action.isCall with
    | true => simp [calls, isCall, ih]
    | false =>
      have unserved : serve i proxy action = proxy := by
        cases action <;> simp_all [Action.isCall, serve]
      simp [calls, isCall, ih, unserved]

theorem relays_foldl_serve (i : ι) (actions : List Action) (proxy : Proxy ι) :
    (actions.foldl (serve i) proxy).relays = proxy.relays := by
  induction actions generalizing proxy with
  | nil => rfl
  | cons action actions ih =>
    rw [List.foldl_cons, ih]
    unfold serve
    split <;> rfl

theorem opened_foldl_serve (i : ι) (actions : List Action) (proxy : Proxy ι) :
    (actions.foldl (serve i) proxy).opened = proxy.opened := by
  induction actions generalizing proxy with
  | nil => rfl
  | cons action actions ih =>
    rw [List.foldl_cons, ih]
    unfold serve
    split <;> rfl

end Calls

/-! ## Steps of relays -/

section Steps

variable {stream : TransportStream} {proxy : Proxy ι} {owner : Option (Owner ι)}
  {relay after : RelaySession}

theorem connect_of_mem_streams {op : Op} {completion : Completion}
    (fits : relay.Fits op completion = true) (brought : stream ∈ completion.streams) :
    ∃ target next endpoint fromPool, op = .connect target next ∧
      completion = .connected (.ok (stream, endpoint, fromPool)) := by
  unfold Completion.streams at brought
  split at brought
  · rename_i stream' connection
    rw [List.mem_singleton] at brought
    subst brought
    cases op with
    | connect target next => exact ⟨target, next, connection.1, connection.2, rfl, rfl⟩
    | _ => simp [Fits] at fits
  · simp at brought

variable {input : Input}

theorem connection_of_outcome (outcome : relay.Outcome input after)
    (brought : stream ∈ input.streams) :
    ∃ target next endpoint fromPool,
      input = .complete (.connect target next) (.connected (.ok (stream, endpoint, fromPool))) := by
  cases outcome with
  | exchange waits awaits fits handled =>
    rcases connect_of_mem_streams fits brought with ⟨target, next, endpoint, fromPool, rfl, rfl⟩
    exact ⟨target, next, endpoint, fromPool, rfl⟩
  | tunnel bridging holds directions carries outstanding fits carried =>
    rcases connect_of_mem_streams fits brought with ⟨target, next, endpoint, fromPool, rfl, rfl⟩
    exact ⟨target, next, endpoint, fromPool, rfl⟩
  | ignored done carries outstanding fits =>
    rcases connect_of_mem_streams fits brought with ⟨target, next, endpoint, fromPool, rfl, rfl⟩
    exact ⟨target, next, endpoint, fromPool, rfl⟩
  | expired | timedOut | shutsDown | drains | alreadyClosed => simp [Input.streams] at brought

/-- A connection that a relay is given is the idle one that it was promised, or a new one. -/
theorem delivered_cases {i : ι} {target : ConnectTarget} {next : ConnectThen}
    {endpoint : BackendEndpoint} {fromPool : Bool} (answers : proxy.Answers i
      (.complete (.connect target next) (.connected (.ok (stream, endpoint, fromPool)))) = true) :
    proxy.checkouts i = some (.reused stream endpoint) ∧ fromPool = true ∨
      stream ∉ proxy.opened ∧ (fromPool = true → endpoint.protocol = .QUIC) := by
  simp only [Answers] at answers
  cases promised : proxy.checkouts i with
  | none => simp [promised] at answers
  | some checkout =>
    cases checkout with
    | notFound => simp [promised] at answers
    | reused stream' endpoint' =>
      simp only [promised, decide_eq_true_eq, Prod.mk.injEq] at answers
      rcases answers with ⟨rfl, rfl, isReused⟩
      exact .inl ⟨rfl, isReused⟩
    | connecting endpoint' =>
      simp only [promised, decide_eq_true_eq] at answers
      rcases answers with ⟨rfl, isNew, onlyQuic⟩
      exact .inr ⟨isNew, onlyQuic⟩

theorem Placed.handed_over (placed : Placed stream proxy owner) {i : ι} {target : ConnectTarget}
    {next : ConnectThen} {endpoint : BackendEndpoint} {fromPool : Bool} (answers : proxy.Answers i
      (.complete (.connect target next) (.connected (.ok (stream, endpoint, fromPool)))) = true) :
    owner = some (.counter i) ∨ owner = none ∧ stream ∉ proxy.opened := by
  rcases delivered_cases answers with ⟨promised, -⟩ | ⟨isNew, -⟩
  · exact .inl (placed.promised i _ promised (by simp [Checkout.streams]))
  · refine .inr ⟨?_, isNew⟩
    by_contra isOwned
    exact isNew (placed.known isOwned)

variable [DecidableEq ι]

theorem pool_collect (proxy : Proxy ι) (i : ι) (input : Input) :
    (proxy.collect i input).pool = proxy.pool := by
  unfold collect
  split <;> rfl

/-- The pool still promises only what it promised before. -/
theorem checkouts_collect {i j : ι} {checkout : Checkout}
    (isCheckout : (proxy.collect i input).checkouts j = some checkout) :
    proxy.checkouts j = some checkout := by
  unfold collect at isCheckout
  split at isCheckout
  · by_cases same : j = i
    · subst same
      simp at isCheckout
    · simpa [Function.update_of_ne same] using isCheckout
  · exact isCheckout

theorem reaches_advance {i j : ι}
    (reaches : ((proxy.advance i input { after with out := [] }).relays j).Reaches stream) :
    j = i ∧ after.Reaches stream ∨ j ≠ i ∧ (proxy.relays j).Reaches stream := by
  by_cases same : j = i
  · subst same
    simp only [advance, Function.update_self] at reaches
    exact .inl ⟨rfl, reaches⟩
  · simp only [advance, Function.update_of_ne same] at reaches
    exact .inr ⟨same, reaches⟩

theorem Placed.advance_handed (placed : Placed stream proxy owner) {i : ι}
    (outcome : (proxy.relays i).Outcome input after) (answers : proxy.Answers i input = true)
    (brought : stream ∈ input.streams) :
    Placed stream (proxy.advance i input { after with out := [] }) (some (.relay i)) := by
  rcases connection_of_outcome outcome brought with ⟨target, next, endpoint, fromPool, rfl⟩
  have given := placed.handed_over answers
  have elsewhere : ∀ other : Owner ι, other ≠ .counter i → owner ≠ some other := by
    rintro other differs rfl
    rcases given with isCounter | ⟨isNone, -⟩
    · simp only [Option.some.injEq] at isCounter
      exact differs isCounter
    · simp at isNone
  refine ⟨?_, ?_, ?_, ?_, ?_⟩
  · intro j reaches
    rcases reaches_advance reaches with ⟨rfl, -⟩ | ⟨-, reaches⟩
    · rfl
    · exact absurd (placed.reached j reaches) (elsewhere _ (by simp))
  · exact fun shelved => absurd (placed.shelved shelved) (elsewhere _ (by simp))
  · exact placed.once
  · intro j checkout isCheckout inCheckout
    by_cases same : j = i
    · subst same
      simp [advance, collect] at isCheckout
    · simp only [Proxy.advance] at isCheckout
      have isPromised := checkouts_collect isCheckout
      have isOwner := placed.promised j checkout isPromised inCheckout
      exact absurd isOwner (elsewhere _ (by simp [same]))
  · exact fun _ => List.mem_append_left _ brought

theorem Placed.advance_other (placed : Placed stream proxy owner) {i : ι}
    (outcome : (proxy.relays i).Outcome input after) (others : stream ∉ input.streams) :
    Placed stream (proxy.advance i input { after with out := [] }) owner := by
  have within := outcome.within
  refine ⟨?_, ?_, ?_, ?_, ?_⟩
  · intro j reaches
    rcases reaches_advance reaches with ⟨rfl, isBackend | ⟨op, opMem, used⟩⟩ | ⟨-, reaches⟩
    · exact placed.reached j ((within.backend stream isBackend).resolve_right others)
    · exact placed.reached j ((within.pending op opMem stream used).resolve_right others)
    · exact placed.reached j reaches
  · intro shelved
    rw [advance, pool_collect] at shelved
    exact placed.shelved shelved
  · rw [advance, pool_collect]
    exact placed.once
  · intro j checkout isCheckout inCheckout
    simp only [Proxy.advance] at isCheckout
    exact placed.promised j checkout (checkouts_collect isCheckout) inCheckout
  · exact fun isOwned => List.mem_append_right _ (placed.known isOwned)

/-- A callback of a relay that reaches the connection has it before and after. -/
theorem Placed.advance (placed : Placed stream proxy owner) {i : ι}
    (outcome : (proxy.relays i).Outcome input after) (answers : proxy.Answers i input = true) :
    ∃ owner', Placed stream (proxy.advance i input { after with out := [] }) owner' ∧
      ((proxy.relays i).Reaches stream → owner' = some (.relay i)) := by
  by_cases brought : stream ∈ input.streams
  · exact ⟨_, placed.advance_handed outcome answers brought, fun _ => rfl⟩
  · exact ⟨owner, placed.advance_other outcome brought, placed.reached i⟩

/-- What the pool does with a connection when it is called by a relay. -/
inductive Moves (stream : TransportStream) (i : ι) (actions : List Action) :
    Option (Owner ι) → Option (Owner ι) → Prop where
  | stays (owner : Option (Owner ι)) : Moves stream i actions owner owner
  | handedOut : Moves stream i actions (some .shelf) (some (.counter i))
  | released (endpoint : BackendEndpoint) (before later : List Action)
      (asks : actions = before ++ .release endpoint stream :: later)
      (streamless : Streamless later) : Moves stream i actions (some (.relay i)) (some .shelf)

theorem Placed.serve_all (placed : Placed stream proxy owner) {i : ι}
    {held : Option TransportStream} (deals : Deals held after)
    (isRelay : proxy.relays i = { after with out := [] })
    (isOwner : held = some stream → owner = some (.relay i)) :
    ∃ owner', Placed stream (after.out.foldl (serve i) proxy) owner' ∧
      Moves stream i after.out owner owner' := by
  cases deals with
  | nothing quiet =>
    rw [foldl_serve, quiet]
    exact ⟨owner, placed, .stays owner⟩
  | connects target asks =>
    rw [foldl_serve, asks]
    rcases placed.connect i target with ⟨owner', placed', rfl | ⟨rfl, rfl⟩⟩
    · exact ⟨owner', placed', .stays owner'⟩
    · exact ⟨_, placed', .handedOut⟩
  | releases endpoint released before later isHeld asks quiet streamless gone =>
    rw [foldl_serve, calls_of_release asks quiet streamless]
    by_cases same : stream = released
    · subst same
      rw [isOwner isHeld] at placed ⊢
      refine ⟨_, placed.release_self endpoint ?_, .released endpoint before later asks streamless⟩
      rw [isRelay]
      exact gone
    · exact ⟨owner, placed.release_other i endpoint same, .stays owner⟩

/-- A step of the proxy is a step of one relay, with what the pool does about it. -/
theorem exists_outcome_of_step (control : ∀ i, (proxy.relays i).Control) {i : ι} {next : Proxy ι}
    {actions : List (ι × Action)} (taken : proxy.step (i, input) = some (next, actions)) :
    ∃ after : RelaySession, (proxy.relays i).Outcome input after ∧
      (∀ j, (next.relays j).Control) ∧ proxy.Answers i input = true ∧
      actions = after.out.map (fun action => (i, action)) ∧
      next = after.out.foldl (serve i) (proxy.advance i input { after with out := [] }) := by
  simp only [Proxy.step] at taken
  split at taken
  · rename_i answers
    simp only [Option.map_eq_some_iff, Prod.mk.injEq] at taken
    rcases taken with ⟨⟨relay', acts⟩, stepped, rfl, rfl⟩
    rcases outcome_of_step (control i) stepped with ⟨after, outcome, controlled, rfl, rfl⟩
    refine ⟨after, outcome, ?_, answers, rfl, rfl⟩
    intro j
    rw [relays_foldl_serve]
    by_cases same : j = i
    · subst same
      simp only [Proxy.advance, Function.update_self]
      exact controlled.update _ _ _
    · simp only [Proxy.advance, Function.update_of_ne same]
      exact control j
  · simp at taken

omit [DecidableEq ι] in
theorem placed_start (stream : TransportStream) (sessions : ι → Codec × List Router.Rule × ℕ)
    (endpoints : List BackendEndpoint) : Placed stream (Proxy.start sessions endpoints) none := by
  have empty : (Proxy.start sessions endpoints).pool.streams = [] := by
    simp [Proxy.start, UpstreamPool.streams, List.flatMap_map]
  refine ⟨?_, ?_, ?_, ?_, ?_⟩
  · intro i reaches
    rcases requestPhase_eq
        { clientCodec := (sessions i).1, rules := (sessions i).2.1
          idleTimeout := (sessions i).2.2 } with ⟨idleTimer, entered⟩
    simp only [Proxy.start, RelaySession.start, entered, Reaches] at reaches
    cases isCodec : (sessions i).1 <;> simp [parseOp, Op.streams, Peer.streams, isCodec] at reaches
  · simp [empty]
  · simp [empty]
  · intro i checkout isCheckout
    simp [Proxy.start] at isCheckout
  · simp

end Steps

end Proxy

end ReverseProxy
