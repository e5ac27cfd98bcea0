import ReverseProxy.Machine.Cyclic
import ReverseProxy.Proxy.UpstreamPool

/-!
# Whose turn it is

`UpstreamPool::async_connect` (`proxy/upstream_pool.cpp`) picks an endpoint of a group by a
counter that all groups share.  The counter goes up with every choice for any group, so
that a group sees it jump by the choices made for the others in between.
-/

namespace ReverseProxy

open Machine

namespace UpstreamPool

open Text

/-- A call of the pool. -/
inductive PoolCall where
  | asyncConnect (backendId : Bytes)
  | release (endpoint : BackendEndpoint) (stream : TransportStream)
  deriving DecidableEq

/-- A choice among the endpoints of a group. -/
structure Choice where
  backendId : Bytes
  /-- `idx`, the position among the candidates. -/
  index : ℕ
  endpoint : BackendEndpoint
  deriving DecidableEq

/-- The index that `async_connect` computes from the counter. -/
def turn (pool : UpstreamPool) (backendId : Bytes) : ℕ :=
  pool.rrIndex % (pool.candidates backendId).length

/-- The choice that `async_connect` makes; there is none in an empty group. -/
def choices (pool : UpstreamPool) (backendId : Bytes) : List Choice :=
  ((pool.candidates backendId)[pool.turn backendId]?).toList.map fun entry =>
    { backendId, index := pool.turn backendId, endpoint := entry.1.be }

/-- A call of the pool. -/
def call (pool : UpstreamPool) : PoolCall → Option (UpstreamPool × List Choice)
  | .asyncConnect backendId => some ((pool.asyncConnect backendId).1, pool.choices backendId)
  | .release endpoint stream => some (pool.release endpoint stream, [])

/-- The pool of a configuration, before the first call. -/
def configured (config : List BackendEndpoint) : UpstreamPool :=
  { endpoints := config.map fun be => { be } }

/-- The endpoints of a group in configuration order. -/
def group (config : List BackendEndpoint) (backendId : Bytes) : List BackendEndpoint :=
  config.filter fun be => be.backendId = backendId

/-! ## What the calls keep -/

/-- The configuration that a pool was made from. -/
def config (pool : UpstreamPool) : List BackendEndpoint :=
  pool.endpoints.map EndpointEntry.be

theorem config_configured (config : List BackendEndpoint) :
    (configured config).config = config := by
  rw [UpstreamPool.config, configured, List.map_map]
  exact List.map_id config

theorem map_candidates (pool : UpstreamPool) (backendId : Bytes) :
    (pool.candidates backendId).map (fun entry => entry.1.be) =
      group pool.config backendId := by
  have entries : pool.endpoints = pool.endpoints.zipIdx.map Prod.fst := by
    rw [List.zipIdx_map_fst]
  rw [group, config, List.filter_map]
  conv_rhs => rw [entries, List.filter_map, List.map_map]
  rfl

theorem config_shelve (endpoint : BackendEndpoint) (stream : TransportStream)
    (endpoints : List EndpointEntry) :
    (shelve endpoint stream endpoints).map EndpointEntry.be = endpoints.map EndpointEntry.be := by
  induction endpoints with
  | nil => rfl
  | cons entry later ih =>
    unfold shelve
    split_ifs
    · rfl
    · rfl
    · rw [List.map_cons, ih, List.map_cons]

theorem config_release (pool : UpstreamPool) (endpoint : BackendEndpoint)
    (stream : TransportStream) : (pool.release endpoint stream).config = pool.config := by
  unfold release
  split
  · rfl
  · exact config_shelve endpoint stream pool.endpoints

/-- What `async_connect` does with the entry whose turn it is. -/
inductive Connects (pool : UpstreamPool) (backendId : Bytes) :
    UpstreamPool → Checkout → Prop where
  | notFound (empty : pool.candidates backendId = []) :
      Connects pool backendId pool .notFound
  | fresh (entry : EndpointEntry) (position : ℕ)
      (chosen : (pool.candidates backendId)[pool.turn backendId]? = some (entry, position))
      (none : entry.be.protocol = .QUIC ∨ entry.idle = []) :
      Connects pool backendId { pool with rrIndex := (pool.rrIndex + 1) % 2 ^ 64 }
        (.connecting entry.be)
  | reused (entry : EndpointEntry) (position : ℕ) (stream : TransportStream)
      (idle : List TransportStream)
      (chosen : (pool.candidates backendId)[pool.turn backendId]? = some (entry, position))
      (tcp : entry.be.protocol ≠ .QUIC) (isIdle : entry.idle = stream :: idle) :
      Connects pool backendId
        { endpoints := pool.endpoints.set position { entry with idle }
          rrIndex := (pool.rrIndex + 1) % 2 ^ 64 }
        (.reused stream entry.be)

theorem connects_asyncConnect (pool : UpstreamPool) (backendId : Bytes) :
    pool.Connects backendId (pool.asyncConnect backendId).1 (pool.asyncConnect backendId).2 := by
  unfold asyncConnect
  dsimp only
  split
  · rename_i outside
    refine .notFound ?_
    by_contra nonempty
    have inside := Nat.mod_lt pool.rrIndex (List.length_pos_iff.mpr nonempty)
    rw [List.getElem?_eq_none_iff] at outside
    omega
  · rename_i entry position chosen
    split_ifs with quic
    · exact .fresh entry position chosen (.inl quic)
    · split
      · rename_i stream idle isIdle
        exact .reused entry position stream idle chosen quic isIdle
      · rename_i empty
        exact .fresh entry position chosen (.inr empty)

theorem length_candidates (pool : UpstreamPool) (backendId : Bytes) :
    (pool.candidates backendId).length = (group pool.config backendId).length := by
  rw [← map_candidates, List.length_map]

section Connects

variable {pool next : UpstreamPool} {backendId : Bytes} {checkout : Checkout}

theorem Connects.config_eq (connects : pool.Connects backendId next checkout) :
    next.config = pool.config := by
  cases connects with
  | notFound empty => rfl
  | fresh entry position chosen none => rfl
  | reused entry position stream idle chosen tcp isIdle =>
    have isEntry := getElem?_of_candidates chosen
    rcases List.getElem?_eq_some_iff.mp isEntry with ⟨inside, rfl⟩
    have same : (pool.endpoints.map EndpointEntry.be)[position]? =
        some (pool.endpoints[position]).be := by
      rw [List.getElem?_map, isEntry, Option.map_some]
    rcases List.getElem?_eq_some_iff.mp same with ⟨inside', same⟩
    rw [config, List.map_set]
    show (pool.endpoints.map EndpointEntry.be).set position (pool.endpoints[position]).be = _
    rw [← same, List.set_getElem_self]
    rfl

/-- The counter goes up by one with a choice. -/
theorem Connects.rrIndex_eq (connects : pool.Connects backendId next checkout)
    (wrapped : pool.rrIndex < 2 ^ 64) :
    next.rrIndex = (pool.rrIndex + (pool.choices backendId).length) % 2 ^ 64 := by
  cases connects with
  | notFound empty =>
    have none : pool.choices backendId = [] := by simp [choices, empty]
    rw [none]
    exact (Nat.mod_eq_of_lt wrapped).symm
  | fresh entry position chosen none => simp [choices, chosen]
  | reused entry position stream idle chosen tcp isIdle => simp [choices, chosen]

end Connects

/-! ## The choices of a run -/

/-- The numbers of the choices made for a group, counted over all groups. -/
def turns (backendId : Bytes) (made : List Choice) : List ℕ :=
  (made.zipIdx.filter fun choice => choice.1.backendId = backendId).map Prod.snd

/-- The indices chosen for a group. -/
def indices (backendId : Bytes) (made : List Choice) : List ℕ :=
  (made.filter fun choice => choice.backendId = backendId).map Choice.index

/-- A choice is that of the endpoint that the counter points to. -/
structure Counted (config : List BackendEndpoint) (choice : Choice) (number : ℕ) : Prop where
  index : choice.index = number % 2 ^ 64 % (group config choice.backendId).length
  endpoint : (group config choice.backendId)[choice.index]? = some choice.endpoint

/-- The counter counts the choices, and each choice was made by it. -/
structure RoundRobin (config : List BackendEndpoint) (made : List Choice) (pool : UpstreamPool) :
    Prop where
  kept : pool.config = config
  counter : pool.rrIndex = made.length % 2 ^ 64
  counted : ∀ number choice, made[number]? = some choice → Counted config choice number

theorem counted_of_choices {pool : UpstreamPool} {backendId : Bytes} {choice : Choice}
    (isChoice : choice ∈ pool.choices backendId) {number : ℕ}
    (counter : pool.rrIndex = number % 2 ^ 64) : Counted pool.config choice number := by
  rcases List.mem_map.mp isChoice with ⟨entry, chosen, rfl⟩
  have found := Option.mem_toList.mp chosen
  have isTurn : pool.turn backendId =
      number % 2 ^ 64 % (group pool.config backendId).length := by
    rw [turn, counter, length_candidates]
  refine ⟨isTurn, ?_⟩
  rw [← map_candidates, List.getElem?_map, found]
  rfl

theorem RoundRobin.call {config : List BackendEndpoint} {made actions : List Choice}
    {pool next : UpstreamPool} {input : PoolCall} (holds : RoundRobin config made pool)
    (called : pool.call input = some (next, actions)) :
    RoundRobin config (made ++ actions) next := by
  rcases holds with ⟨rfl, counter, counted⟩
  cases input with
  | release endpoint stream =>
    cases called
    rw [List.append_nil]
    refine ⟨config_release pool endpoint stream, ?_, counted⟩
    rw [← counter, release]
    split <;> rfl
  | asyncConnect backendId =>
    cases called
    have connects := connects_asyncConnect pool backendId
    have wrapped : pool.rrIndex < 2 ^ 64 := by
      rw [counter]
      exact Nat.mod_lt _ (by omega)
    refine ⟨connects.config_eq, ?_, ?_⟩
    · rw [connects.rrIndex_eq wrapped, counter, Nat.mod_add_mod, List.length_append]
    · intro number choice isChoice
      rw [List.getElem?_append] at isChoice
      split_ifs at isChoice with old
      · exact counted number choice isChoice
      · have isNew := List.mem_of_getElem? isChoice
        have single : (pool.choices backendId).length ≤ 1 := by
          rw [choices, List.length_map]
          exact Option.length_toList_le
        have first : number = made.length := by
          have inside := (List.getElem?_eq_some_iff.mp isChoice).1
          omega
        rw [first]
        exact counted_of_choices isNew counter

theorem roundRobin_of_runs {config : List BackendEndpoint} {made : List Choice}
    {pool : UpstreamPool} (runs : Runs call anyInput (configured config) made pool) :
    RoundRobin config made pool := by
  apply Runs.invariant ?_ ?_ runs
  · exact ⟨config_configured config, rfl, by simp⟩
  · intro made pool input next actions holds _ called
    exact holds.call called

/-! ## Fairness -/

/--
Between the choices number `first` and `second`, both for one group of `m` endpoints, as many
choices were made for other groups as leave the group's turn where it was: a multiple of
`m`, where every wrap of the counter takes `2 ^ 64` off.
-/
def InTurn (m first second : ℕ) : Prop :=
  (m : ℤ) ∣ ((second : ℤ) - first - 1) - 2 ^ 64 * ((second / 2 ^ 64 : ℕ) - (first / 2 ^ 64 : ℕ))

theorem inTurn_iff (m first second : ℕ) :
    InTurn m first second ↔
      second % 2 ^ 64 % m = (first % 2 ^ 64 % m + 1) % m := by
  have wrapFirst := Nat.div_add_mod first (2 ^ 64)
  have wrapSecond := Nat.div_add_mod second (2 ^ 64)
  have difference : ((second : ℤ) - first - 1) -
      2 ^ 64 * ((second / 2 ^ 64 : ℕ) - (first / 2 ^ 64 : ℕ)) =
        ((second % 2 ^ 64 : ℕ) : ℤ) - ((first % 2 ^ 64 + 1 : ℕ) : ℤ) := by
    omega
  rw [InTurn, difference, ← Nat.modEq_iff_dvd, Nat.ModEq, Nat.mod_add_mod]
  exact eq_comm

theorem indices_eq {config : List BackendEndpoint} {made : List Choice} {pool : UpstreamPool}
    (holds : RoundRobin config made pool) (backendId : Bytes) :
    indices backendId made =
      (turns backendId made).map fun number => number % 2 ^ 64 % (group config backendId).length := by
  have numbered : made = made.zipIdx.map Prod.fst := by rw [List.zipIdx_map_fst]
  rw [indices, turns, List.map_map]
  conv_lhs => rw [numbered, List.filter_map, List.map_map]
  apply List.map_congr_left
  intro choice isChoice
  rcases List.mem_filter.mp isChoice with ⟨inRun, inGroup⟩
  have counted := holds.counted choice.2 choice.1 (List.mem_zipIdx_iff_getElem?.mp inRun)
  have isGroup : choice.1.backendId = backendId := by simpa using inGroup
  rw [Function.comp_apply, Function.comp_apply, counted.index, isGroup]

/-- The calls for a group choose its endpoints in turn, and each gets its share. -/
structure ServedInTurn (config : List BackendEndpoint) (backendId : Bytes)
    (made : List Choice) : Prop where
  endpoints : ∀ choice ∈ made,
    (group config choice.backendId)[choice.index]? = some choice.endpoint
  cyclic : Cyclic (group config backendId).length (indices backendId made)
  share : FairShare (group config backendId).length (indices backendId made)

/-- The calls for a group choose its endpoints in turn exactly if the other groups let them. -/
theorem servedInTurn_iff {config : List BackendEndpoint} {made : List Choice}
    {pool : UpstreamPool}
    (runs : Runs call anyInput (configured config) made pool)
    (backendId : Bytes) :
    ServedInTurn config backendId made ↔
      (turns backendId made).IsChain (InTurn (group config backendId).length) := by
  have holds := roundRobin_of_runs runs
  have endpoints : ∀ choice ∈ made,
      (group config choice.backendId)[choice.index]? = some choice.endpoint := by
    intro choice isChoice
    rcases List.getElem?_of_mem isChoice with ⟨number, found⟩
    exact (holds.counted number choice found).endpoint
  have below : ∀ index ∈ indices backendId made, index < (group config backendId).length := by
    intro index isIndex
    rcases List.mem_map.mp isIndex with ⟨choice, inGroup, rfl⟩
    rcases List.mem_filter.mp inGroup with ⟨isChoice, isGroup⟩
    have found := endpoints choice isChoice
    rw [show choice.backendId = backendId by simpa using isGroup] at found
    exact (List.getElem?_eq_some_iff.mp found).1
  have chained : (indices backendId made).IsChain (fun index later =>
      later = (index + 1) % (group config backendId).length) ↔
        (turns backendId made).IsChain (InTurn (group config backendId).length) := by
    rw [indices_eq holds, List.isChain_map]
    simp only [← inTurn_iff]
  rw [← chained]
  constructor
  · intro served
    exact served.cyclic.next
  · intro chain
    exact ⟨endpoints, ⟨below, chain⟩, Cyclic.fairShare ⟨below, chain⟩⟩

/-- Two groups, one of two endpoints. -/
def twoGroups : List BackendEndpoint :=
  [{ backendId := ascii "a", host := ascii "a1", port := 80 },
    { backendId := ascii "a", host := ascii "a2", port := 80 },
    { backendId := ascii "b", host := ascii "b1", port := 80 }]

theorem servedInTurn_iff_alone :
    ∃ made pool, Runs call anyInput (configured twoGroups) made pool ∧
      made.length = 3 ∧ ServedInTurn twoGroups (ascii "a") made := by
  have reached : (run call (fun _ _ => true) (configured twoGroups)
      [.asyncConnect (ascii "a"), .asyncConnect (ascii "a"), .asyncConnect (ascii "a")]).any
        (fun last => decide (last.2.length = 3 ∧ turns (ascii "a") last.2 = [0, 1, 2])) =
          true := by
    decide +kernel
  rcases exists_runs_any reached with ⟨made, pool, runs, three, numbers⟩
  refine ⟨made, pool, runs, three, (servedInTurn_iff runs (ascii "a")).mpr ?_⟩
  rw [numbers]
  simp [show (group twoGroups (ascii "a")).length = 2 by decide +kernel, InTurn]

/-- When the groups are called in alternation, the second endpoint of the first is never chosen. -/
theorem alternation_starves :
    ∃ made pool, Runs call anyInput (configured twoGroups) made pool ∧
      indices (ascii "a") made = [0, 0, 0] ∧ ¬ServedInTurn twoGroups (ascii "a") made := by
  have reached : (run call (fun _ _ => true) (configured twoGroups)
      [.asyncConnect (ascii "a"), .asyncConnect (ascii "b"), .asyncConnect (ascii "a"),
        .asyncConnect (ascii "b"), .asyncConnect (ascii "a")]).any
        (fun last => decide (indices (ascii "a") last.2 = [0, 0, 0])) = true := by
    decide +kernel
  rcases exists_runs_any reached with ⟨made, pool, runs, shows⟩
  have chosen := shows
  refine ⟨made, pool, runs, chosen, ?_⟩
  intro served
  have chain := served.cyclic.next
  have size : (group twoGroups (ascii "a")).length = 2 := by decide +kernel
  rw [chosen, size] at chain
  simp at chain

end UpstreamPool

end ReverseProxy
