import ReverseProxy.Proxy.RoundRobin

/-!
# Whether released connections are used again

`UpstreamPool::release` files a connection with the first entry that has its backend id,
host and port; `async_connect` looks only at the entry whose turn it is, and at the idle
connections of TCP entries only.  The two meet if, among the entries for an address, the
first is the one for TCP.
-/

namespace ReverseProxy

open Machine

namespace UpstreamPool

open Text

/-- What `release` compares. -/
def SameAddress (be endpoint : BackendEndpoint) : Prop :=
  be.backendId = endpoint.backendId ∧ be.host = endpoint.host ∧ be.port = endpoint.port

instance (be endpoint : BackendEndpoint) : Decidable (SameAddress be endpoint) :=
  inferInstanceAs (Decidable (_ ∧ _))

/-- The position of the entry that `release` takes for an endpoint. -/
def firstFor (config : List BackendEndpoint) (endpoint : BackendEndpoint) : Option ℕ :=
  config.findIdx? fun be => SameAddress be endpoint

/-- The endpoints of a configuration; a vector has fewer than `2 ^ 64` elements. -/
structure Configuration where
  endpoints : List BackendEndpoint
  fits : endpoints.length < 2 ^ 64

/-- The calls under which the endpoints passed to `release` are these. -/
def Releasing (released : BackendEndpoint → Prop) (_ : UpstreamPool) : PoolCall → Prop
  | .asyncConnect _ => True
  | .release endpoint _ => released endpoint

/-- Every idle connection is with a TCP entry, from which `async_connect` can take it. -/
def Takeable (pool : UpstreamPool) : Prop :=
  ∀ entry ∈ pool.endpoints, entry.idle ≠ [] → entry.be.protocol ≠ .QUIC

/-- A TCP endpoint whose turn it is answers with an idle connection if there is one for it. -/
def Reuses (pool : UpstreamPool) : Prop :=
  ∀ backendId entry position,
    (pool.candidates backendId)[pool.turn backendId]? = some (entry, position) →
      entry.be.protocol ≠ .QUIC →
        (∃ other ∈ pool.endpoints, SameAddress other.be entry.be ∧ other.idle ≠ []) →
          ∃ stream, (pool.asyncConnect backendId).2 = .reused stream entry.be

/-- Of the entries for an address, the first is the one for TCP. -/
def OneQueue (config : List BackendEndpoint) (endpoint : BackendEndpoint) : Prop :=
  ∀ first, firstFor config endpoint = some first →
    ∀ (position : ℕ) be, config[position]? = some be → SameAddress be endpoint →
      (be.protocol ≠ .QUIC ↔ position = first)

theorem SameAddress.symm {be endpoint : BackendEndpoint} (same : SameAddress be endpoint) :
    SameAddress endpoint be :=
  ⟨same.1.symm, same.2.1.symm, same.2.2.symm⟩

theorem SameAddress.trans {be other endpoint : BackendEndpoint} (first : SameAddress be other)
    (second : SameAddress other endpoint) : SameAddress be endpoint :=
  ⟨first.1.trans second.1, first.2.1.trans second.2.1, first.2.2.trans second.2.2⟩

/-! ## Where the calls put connections -/

variable {endpoint : BackendEndpoint}

theorem shelve_cons_same (stream : TransportStream) {head : EndpointEntry}
    (later : List EndpointEntry) (same : SameAddress head.be endpoint) :
    shelve endpoint stream (head :: later) =
      (if head.idle.length < maxIdlePerEndpoint then
        { head with idle := head.idle ++ [stream] } else head) :: later := by
  rw [SameAddress] at same
  rw [shelve, if_pos same]
  split_ifs
  · rfl
  · rfl

theorem shelve_cons_other (stream : TransportStream) {head : EndpointEntry}
    (later : List EndpointEntry) (other : ¬ SameAddress head.be endpoint) :
    shelve endpoint stream (head :: later) = head :: shelve endpoint stream later := by
  rw [SameAddress] at other
  rw [shelve, if_neg other]

variable {entry : EndpointEntry}

/-- `release` touches the entry it takes and no other. -/
theorem getElem?_shelve {stream : TransportStream} {endpoints : List EndpointEntry} {position : ℕ}
    (isEntry : (shelve endpoint stream endpoints)[position]? = some entry) :
    ∃ old, endpoints[position]? = some old ∧ entry.be = old.be ∧
      (entry.idle = old.idle ∨
        firstFor (endpoints.map EndpointEntry.be) endpoint = some position) := by
  induction endpoints generalizing position with
  | nil => simp [shelve] at isEntry
  | cons head later ih =>
    by_cases same : SameAddress head.be endpoint
    · rw [shelve_cons_same stream later same] at isEntry
      cases position with
      | zero =>
        refine ⟨head, rfl, ?_, .inr ?_⟩
        · cases isEntry
          split_ifs
          · rfl
          · rfl
        · simp [firstFor, List.findIdx?_cons, same]
      | succ position => exact ⟨entry, isEntry, rfl, .inl rfl⟩
    · rw [shelve_cons_other stream later same] at isEntry
      cases position with
      | zero =>
        cases isEntry
        exact ⟨_, rfl, rfl, .inl rfl⟩
      | succ position =>
        rcases ih isEntry with ⟨old, isOld, sameBe, kept | isFirst⟩
        · exact ⟨old, isOld, sameBe, .inl kept⟩
        · refine ⟨old, isOld, sameBe, .inr ?_⟩
          rw [firstFor] at isFirst ⊢
          simp [List.findIdx?_cons, same, isFirst]

variable {backendId : Bytes}

/-- `async_connect` takes from queues and puts nothing there. -/
theorem getElem?_of_connects {pool next : UpstreamPool} {checkout : Checkout}
    (connects : pool.Connects backendId next checkout) {position : ℕ}
    (isEntry : next.endpoints[position]? = some entry) :
    ∃ old, pool.endpoints[position]? = some old ∧ entry.be = old.be ∧
      entry.idle <:+ old.idle := by
  cases connects with
  | notFound empty => exact ⟨entry, isEntry, rfl, List.suffix_refl _⟩
  | fresh chosen place isChosen none => exact ⟨entry, isEntry, rfl, List.suffix_refl _⟩
  | reused chosen place stream idle isChosen tcp isIdle =>
    have wasEntry := getElem?_of_candidates isChosen
    rw [List.getElem?_set] at isEntry
    split_ifs at isEntry with here inside
    · subst here
      cases isEntry
      refine ⟨chosen, wasEntry, rfl, ?_⟩
      rw [isIdle]
      exact List.suffix_cons stream idle
    · exact ⟨entry, isEntry, rfl, List.suffix_refl _⟩

/-- What `async_connect` answers is decided by the entry whose turn it is. -/
theorem reused_iff_of_turn {pool : UpstreamPool} {position : ℕ}
    (chosen : (pool.candidates backendId)[pool.turn backendId]? = some (entry, position))
    (tcp : entry.be.protocol ≠ .QUIC) :
    (∃ stream, (pool.asyncConnect backendId).2 = .reused stream entry.be) ↔ entry.idle ≠ [] := by
  have connects := connects_asyncConnect pool backendId
  generalize (pool.asyncConnect backendId).1 = next at connects
  generalize (pool.asyncConnect backendId).2 = checkout at connects ⊢
  cases connects with
  | notFound empty => simp [empty] at chosen
  | fresh entry' position' chosen' none =>
    cases chosen.symm.trans chosen'
    simp [none.resolve_left tcp]
  | reused entry' position' stream idle chosen' tcp' isIdle =>
    cases chosen.symm.trans chosen'
    simp [isIdle]

/-! ## Every run of calls -/

theorem idle_of_configured {config : List BackendEndpoint}
    (isEntry : entry ∈ (configured config).endpoints) : entry.idle = [] := by
  rcases List.mem_map.mp isEntry with ⟨be, _, rfl⟩
  rfl

/-- Every idle connection is with the entry that `release` takes for some endpoint. -/
structure Filed (released : BackendEndpoint → Prop) (config : List BackendEndpoint)
    (pool : UpstreamPool) : Prop where
  config_eq : pool.config = config
  filed : ∀ position entry, pool.endpoints[position]? = some entry → entry.idle ≠ [] →
    ∃ endpoint, released endpoint ∧ endpoint.protocol ≠ .QUIC ∧
      firstFor config endpoint = some position

section Runs

variable {released : BackendEndpoint → Prop} {config : List BackendEndpoint}
  {pool next : UpstreamPool} {made : List Choice}

theorem Filed.getElem?_config (filed : Filed released config pool) {position : ℕ}
    (isEntry : pool.endpoints[position]? = some entry) : config[position]? = some entry.be := by
  rw [← filed.config_eq, UpstreamPool.config, List.getElem?_map, isEntry, Option.map_some]

theorem Filed.connects (filed : Filed released config pool) {checkout : Checkout}
    (connects : pool.Connects backendId next checkout) : Filed released config next := by
  refine ⟨connects.config_eq.trans filed.config_eq, ?_⟩
  intro position entry isEntry idle
  rcases getElem?_of_connects connects isEntry with ⟨old, isOld, sameBe, taken⟩
  apply filed.filed position old isOld
  intro empty
  rw [empty, List.suffix_nil] at taken
  exact idle taken

theorem Filed.release (filed : Filed released config pool) (isReleased : released endpoint)
    (stream : TransportStream) : Filed released config (pool.release endpoint stream) := by
  refine ⟨(config_release pool endpoint stream).trans filed.config_eq, ?_⟩
  unfold UpstreamPool.release
  split_ifs with quic
  · exact filed.filed
  · intro position entry isEntry idle
    rcases getElem?_shelve isEntry with ⟨old, isOld, sameBe, kept | isFirst⟩
    · rw [kept] at idle
      exact filed.filed position old isOld idle
    · rw [← filed.config_eq]
      exact ⟨endpoint, isReleased, quic, isFirst⟩

theorem filed_of_runs (runs : Runs call (Releasing released) (configured config) made pool) :
    Filed released config pool := by
  apply Runs.state_invariant ?_ ?_ runs
  · refine ⟨config_configured config, ?_⟩
    intro position entry isEntry idle
    exact absurd (idle_of_configured (List.mem_of_getElem? isEntry)) idle
  · intro pool input next actions filed isReleased called
    cases input with
    | asyncConnect backendId =>
      cases called
      exact filed.connects (connects_asyncConnect pool backendId)
    | release endpoint stream =>
      cases called
      exact filed.release isReleased stream

theorem SameAddress.of_firstFor {first : ℕ} (isFirst : firstFor config endpoint = some first) :
    ∃ be, config[first]? = some be ∧ SameAddress be endpoint := by
  rcases List.findIdx?_eq_some_iff_getElem.mp isFirst with ⟨inside, same, _⟩
  exact ⟨config[first], List.getElem?_eq_getElem inside, of_decide_eq_true same⟩

theorem takeable_of_filed (filed : Filed released config pool)
    (oneQueue : ∀ endpoint, released endpoint → endpoint.protocol ≠ .QUIC →
      OneQueue config endpoint) : Takeable pool := by
  intro entry isEntry idle
  rcases List.getElem?_of_mem isEntry with ⟨position, isAt⟩
  rcases filed.filed position entry isAt idle with ⟨endpoint, isReleased, tcp, isFirst⟩
  rcases SameAddress.of_firstFor isFirst with ⟨be, isBe, same⟩
  have isEntryBe : config[position]? = some entry.be := filed.getElem?_config isAt
  cases isBe.symm.trans isEntryBe
  exact (oneQueue endpoint isReleased tcp position isFirst position entry.be isBe same).mpr rfl

theorem reuses_of_filed (filed : Filed released config pool)
    (oneQueue : ∀ endpoint, released endpoint → endpoint.protocol ≠ .QUIC →
      OneQueue config endpoint) : Reuses pool := by
  rintro backendId entry position chosen tcp ⟨other, isOther, sameOther, idle⟩
  have isEntry := getElem?_of_candidates chosen
  rcases List.getElem?_of_mem isOther with ⟨first, isAt⟩
  rcases filed.filed first other isAt idle with ⟨endpoint, isReleased, tcp', isFirst⟩
  rcases SameAddress.of_firstFor isFirst with ⟨be, isBe, same⟩
  cases isBe.symm.trans (filed.getElem?_config isAt)
  -- the entry whose turn it is has the address too, and it is for TCP
  have sameEntry : SameAddress entry.be endpoint := sameOther.symm.trans same
  have here : position = first :=
    (oneQueue endpoint isReleased tcp' first isFirst position entry.be
      (filed.getElem?_config isEntry) sameEntry).mp tcp
  subst here
  cases isEntry.symm.trans isAt
  exact (reused_iff_of_turn chosen tcp).mpr idle

/-! ### Runs that show the need -/

/-- Calls for a group that has endpoints and no idle connection move the counter only. -/
theorem connect_configured {turns : ℕ} (small : turns + 1 < 2 ^ 64)
    (nonempty : (configured config).candidates backendId ≠ []) :
    ({ configured config with rrIndex := turns }.asyncConnect backendId).1 =
      { configured config with rrIndex := turns + 1 } := by
  have connects := connects_asyncConnect { configured config with rrIndex := turns } backendId
  generalize ({ configured config with rrIndex := turns }.asyncConnect backendId).1 = next
    at connects ⊢
  generalize ({ configured config with rrIndex := turns }.asyncConnect backendId).2 = checkout
    at connects
  cases connects with
  | notFound empty => exact absurd empty nonempty
  | fresh entry position chosen none =>
    show ({ configured config with rrIndex := (turns + 1) % 2 ^ 64 } : UpstreamPool) = _
    rw [Nat.mod_eq_of_lt small]
  | reused entry position stream idle chosen tcp isIdle =>
    have isEntry : entry ∈ (configured config).endpoints :=
      List.mem_of_getElem? (getElem?_of_candidates chosen)
    rw [idle_of_configured isEntry] at isIdle
    cases isIdle

theorem exists_runs_connects (nonempty : (configured config).candidates backendId ≠ []) {turns : ℕ}
    (small : turns < 2 ^ 64) :
    ∃ made, Runs call (Releasing released) (configured config) made
      { configured config with rrIndex := turns } := by
  induction turns with
  | zero => exact ⟨[], .refl⟩
  | succ turns ih =>
    rcases ih (by omega) with ⟨made, runs⟩
    have called : call { configured config with rrIndex := turns } (.asyncConnect backendId) =
        some ({ configured config with rrIndex := turns + 1 }, _) :=
      congrArg (fun next => some (next, _)) (connect_configured small nonempty)
    have isAllowed : Releasing released { configured config with rrIndex := turns }
        (.asyncConnect backendId) := trivial
    exact ⟨_, runs.snoc isAllowed called⟩

/-- A connection given back to a pool that has none idle waits with the first entry. -/
theorem idle_shelve (stream : TransportStream) {endpoints : List EndpointEntry}
    (empty : ∀ entry ∈ endpoints, entry.idle = []) {first : ℕ}
    (isFirst : firstFor (endpoints.map EndpointEntry.be) endpoint = some first) :
    ∃ entry, (shelve endpoint stream endpoints)[first]? = some entry ∧
      SameAddress entry.be endpoint ∧ entry.idle ≠ [] := by
  induction endpoints generalizing first with
  | nil => cases isFirst
  | cons head later ih =>
    rw [firstFor, List.map_cons, List.findIdx?_cons] at isFirst
    by_cases same : SameAddress head.be endpoint
    · rw [if_pos (decide_eq_true same)] at isFirst
      cases isFirst
      rw [shelve_cons_same stream later same, empty head List.mem_cons_self]
      exact ⟨_, rfl, same, List.cons_ne_nil stream []⟩
    · rw [if_neg (by simpa using same)] at isFirst
      rcases Option.map_eq_some_iff.mp isFirst with ⟨place, isPlace, rfl⟩
      rw [shelve_cons_other stream later same]
      exact ih (fun entry isEntry => empty entry (List.mem_cons_of_mem _ isEntry)) isPlace

theorem endpoints_release (tcp : endpoint.protocol ≠ .QUIC) (stream : TransportStream) :
    pool.release endpoint stream =
      { pool with endpoints := shelve endpoint stream pool.endpoints } := by
  rw [UpstreamPool.release, if_neg tcp]

theorem tcp_of_takeable (tcp : endpoint.protocol ≠ .QUIC) {stream : TransportStream}
    (takeable : Takeable ((configured config).release endpoint stream)) {first : ℕ}
    (isFirst : firstFor config endpoint = some first) {be : BackendEndpoint}
    (isBe : config[first]? = some be) : be.protocol ≠ .QUIC := by
  rw [endpoints_release tcp] at takeable
  rw [← config_configured config] at isFirst isBe
  rcases idle_shelve stream (fun entry => idle_of_configured) isFirst with
    ⟨entry, isEntry, _, idle⟩
  rcases getElem?_shelve isEntry with ⟨old, isOld, sameBe, _⟩
  rw [UpstreamPool.config, List.getElem?_map, isOld] at isBe
  cases isBe
  rw [← sameBe]
  exact takeable entry (List.mem_of_getElem? isEntry) idle

/-- The entries behind the first stay as the configuration made them. -/
theorem entry_shelve_configured (stream : TransportStream) {first position : ℕ}
    (isFirst : firstFor config endpoint = some first) (later : position ≠ first)
    {be : BackendEndpoint} (isBe : config[position]? = some be) :
    (shelve endpoint stream (configured config).endpoints)[position]? = some { be } := by
  rw [← config_configured config] at isFirst isBe
  have kept : ((shelve endpoint stream (configured config).endpoints).map
      EndpointEntry.be)[position]? = some be := by
    rw [config_shelve]
    exact isBe
  rw [List.getElem?_map] at kept
  rcases Option.map_eq_some_iff.mp kept with ⟨entry, isEntry, rfl⟩
  rcases getElem?_shelve isEntry with ⟨old, isOld, _, keptIdle | isFirst'⟩
  · have empty : entry.idle = [] :=
      keptIdle.trans (idle_of_configured (List.mem_of_getElem? isOld))
    rw [isEntry, ← empty]
  · exact absurd (Option.some.inj (isFirst'.symm.trans isFirst)) later

/-- A later TCP entry for the address has its turn while a connection waits with the first. -/
theorem exists_runs_fresh (isReleased : released endpoint) (tcp : endpoint.protocol ≠ .QUIC)
    (fits : config.length < 2 ^ 64) {first position : ℕ}
    (isFirst : firstFor config endpoint = some first) (later : position ≠ first)
    {be : BackendEndpoint} (isBe : config[position]? = some be) (same : SameAddress be endpoint)
    (tcpBe : be.protocol ≠ .QUIC) :
    ∃ made pool, Runs call (Releasing released) (configured config) made pool ∧
      ¬ Reuses pool := by
  let stream : TransportStream := { id := 0, protocol := .TCP }
  let shelved := shelve endpoint stream (configured config).endpoints
  have isEntry : shelved[position]? = some { be } :=
    entry_shelve_configured stream isFirst later isBe
  have inGroup : (({ be }, position) : EndpointEntry × ℕ) ∈
      ({ endpoints := shelved } : UpstreamPool).candidates be.backendId := by
    apply List.mem_filter.mpr
    exact ⟨List.mem_zipIdx_iff_getElem?.mpr isEntry, by simp⟩
  rcases List.getElem?_of_mem inGroup with ⟨index, chosen⟩
  have inside : index < (({ endpoints := shelved } : UpstreamPool).candidates
      be.backendId).length := (List.getElem?_eq_some_iff.mp chosen).1
  have sameLength : (({ endpoints := shelved } : UpstreamPool).candidates be.backendId).length =
      ((configured config).candidates be.backendId).length := by
    rw [length_candidates, length_candidates]
    exact congrArg (fun config => (group config be.backendId).length)
      (config_shelve endpoint stream _)
  have nonempty : (configured config).candidates be.backendId ≠ [] := by
    apply List.ne_nil_of_length_pos
    omega
  have small : index < 2 ^ 64 := by
    rw [sameLength, length_candidates, config_configured] at inside
    exact lt_of_lt_of_le inside ((List.length_filter_le _ _).trans fits.le)
  rcases exists_runs_connects nonempty small with ⟨made, runs⟩
  have called : call { configured config with rrIndex := index } (.release endpoint stream) =
      some ({ endpoints := shelved, rrIndex := index }, []) :=
    congrArg (fun next => some (next, [])) (endpoints_release tcp stream)
  have isAllowed : Releasing released { configured config with rrIndex := index }
      (.release endpoint stream) := isReleased
  refine ⟨_, _, runs.snoc isAllowed called, ?_⟩
  intro reuses
  have isTurn : ({ endpoints := shelved, rrIndex := index } : UpstreamPool).turn be.backendId =
      index := Nat.mod_eq_of_lt inside
  have turned := (congrArg (fun index => (({ endpoints := shelved } : UpstreamPool).candidates
    be.backendId)[index]?) isTurn).trans chosen
  rw [← config_configured config] at isFirst
  rcases idle_shelve stream (fun entry => idle_of_configured) isFirst with
    ⟨other, isOther, sameOther, idle⟩
  have reused := reuses be.backendId { be } position turned tcpBe
    ⟨other, List.mem_of_getElem? isOther, sameOther.trans same.symm, idle⟩
  exact (reused_iff_of_turn turned tcpBe).mp reused rfl

end Runs

/--
Released connections are reusable in every run of calls exactly if, for every TCP endpoint
that is passed to `release`, the first entry with its address is the only one for TCP.
-/
theorem reusable_iff (config : Configuration) (released : BackendEndpoint → Prop) :
    (∀ made pool,
      Runs call (Releasing released) (configured config.endpoints) made pool →
        Takeable pool ∧ Reuses pool) ↔
      ∀ endpoint, released endpoint → endpoint.protocol ≠ .QUIC →
        OneQueue config.endpoints endpoint := by
  constructor
  · intro reusable endpoint isReleased tcp first isFirst position be isBe same
    constructor
    · intro tcpBe
      by_contra later
      rcases exists_runs_fresh isReleased tcp config.fits isFirst later isBe same tcpBe with
        ⟨made, pool, runs, fresh⟩
      exact fresh (reusable made pool runs).2
    · rintro rfl
      let stream : TransportStream := { id := 0, protocol := .TCP }
      have isAllowed : Releasing released (configured config.endpoints)
          (.release endpoint stream) := isReleased
      have called : call (configured config.endpoints) (.release endpoint stream) =
          some ((configured config.endpoints).release endpoint stream, []) := rfl
      have runs := Runs.refl.snoc isAllowed called
      exact tcp_of_takeable tcp (reusable _ _ runs).1 isFirst isBe
  · intro oneQueue made pool runs
    have filed := filed_of_runs runs
    exact ⟨takeable_of_filed filed oneQueue, reuses_of_filed filed oneQueue⟩

/-- An endpoint reached over TCP. -/
def overTcp : BackendEndpoint :=
  { backendId := ascii "a", host := ascii "h", port := 443 }

/-- The same address over QUIC. -/
def overQuic : BackendEndpoint :=
  { overTcp with protocol := .QUIC }

/--
With the QUIC entry first, a released connection is filed with it and neither turn takes it;
with two TCP entries, the turn of the second does not take it.
-/
theorem released_stranded :
    (∃ made pool, Runs call (Releasing (· = overTcp))
      (configured [overQuic, overTcp]) made pool ∧ ¬ Takeable pool ∧
        (pool.asyncConnect (ascii "a")).2 = .connecting overQuic ∧
        ((pool.asyncConnect (ascii "a")).1.asyncConnect (ascii "a")).2 = .connecting overTcp) ∧
    ∃ made pool, Runs call (Releasing (· = overTcp))
      (configured [overTcp, overTcp]) made pool ∧ ¬ Reuses pool := by
  have isAllowed : ∀ pool, Releasing (· = overTcp) pool
      (.release overTcp { id := 0, protocol := .TCP }) := fun _ => rfl
  constructor
  · refine ⟨_, _, Runs.refl.snoc (isAllowed _) rfl, ?_, by decide +kernel,
      by decide +kernel⟩
    intro takeable
    exact takeable _ List.mem_cons_self (by decide +kernel) (by decide +kernel)
  · have connecting : Releasing (· = overTcp) (configured [overTcp, overTcp])
        (.asyncConnect (ascii "a")) := trivial
    refine ⟨_, _, (Runs.refl.snoc connecting rfl).snoc (isAllowed _) rfl, ?_⟩
    intro reuses
    rcases reuses (ascii "a") { be := overTcp } 1 (by decide +kernel) (by decide +kernel)
      ⟨_, List.mem_cons_self, by decide +kernel, by decide +kernel⟩ with ⟨stream, isReused⟩
    cases isReused

end UpstreamPool

end ReverseProxy
