import Mathlib.Data.Finset.Card
import ReverseProxy.Transport.QuicDemux

/-!
# Sending QUIC packets

`send_specs` (`transport/quic_demux.cpp`) and the `ea_packets_out` callbacks of both engines
(`transport/quic_transport.cpp`).  lsquic takes a return value `r` to mean that the first
`r` packets of the batch have been sent and keeps the others.
-/

namespace ReverseProxy

open Text

/-- The family of a destination address; anything but `AF_INET` is sent as `AF_INET6`. -/
inductive AddressFamily where
  | inet
  | inet6
  deriving DecidableEq, Repr

/-- `lsquic_out_spec`. -/
structure OutSpec where
  destSa : AddressFamily
  iov : List Bytes
  deriving DecidableEq, Repr

/-- How `sendmsg` ends. -/
inductive SendmsgResult where
  | sent
  /-- `EAGAIN` or `EWOULDBLOCK`. -/
  | wouldBlock
  | failed
  deriving DecidableEq, Repr

/-- The variables of the loop, and which packets the kernel has taken. -/
structure SendLoop where
  sent : ℕ := 0
  blocked : Bool := false
  handed : List ℕ := []
  deriving DecidableEq, Repr

/-- The socket for a destination. -/
def OutSpec.fd (spec : OutSpec) (fdV4 fdV6 : ℤ) : ℤ :=
  match spec.destSa with
  | .inet => fdV4
  | .inet6 => fdV6

/-- One round of the loop; `sendmsg i` is what the call for packet `i` returns, if it is made. -/
def sendSpec (fdV4 fdV6 : ℤ) (sendmsg : ℕ → SendmsgResult) (loop : SendLoop) :
    OutSpec × ℕ → SendLoop
  | (spec, i) =>
    if spec.fd fdV4 fdV6 < 0 then loop
    else
      match sendmsg i with
      | .sent => { loop with sent := loop.sent + 1, handed := loop.handed ++ [i] }
      | .wouldBlock => { loop with blocked := true }
      | .failed => loop

/-- `send_specs`. -/
def sendSpecs (fdV4 fdV6 : ℤ) (specs : List OutSpec) (sendmsg : ℕ → SendmsgResult) : SendLoop :=
  specs.zipIdx.foldl (sendSpec fdV4 fdV6 sendmsg) {}

/-- The conversion of an unsigned 32-bit count to `int`. -/
def asInt (count : ℕ) : ℤ :=
  if count % 2 ^ 32 < 2 ^ 31 then (count % 2 ^ 32 : ℕ) else (count % 2 ^ 32 : ℕ) - 2 ^ 32

/-- What an `ea_packets_out` callback returns, and whether it has the socket watched. -/
def packetsOut (fdV4 fdV6 : ℤ) (specs : List OutSpec) (sendmsg : ℕ → SendmsgResult) : ℤ × Bool :=
  let loop := sendSpecs fdV4 fdV6 specs sendmsg
  (asInt loop.sent, loop.blocked)

/-- `QuicServerEngine::on_packets_out_cb`; a blocked batch is reported to the demux. -/
def QuicServerEngine.onPacketsOutCb (demux : QuicPacketDemux) (specs : List OutSpec)
    (sendmsg : ℕ → SendmsgResult) : ℤ × Bool :=
  packetsOut demux.rawFd demux.raw6Fd specs sendmsg

/-- The sockets of a `QuicClientEngine`. -/
structure QuicClientEngine where
  rawFd : ℤ := -1
  raw6Fd : ℤ := -1

/-- `QuicClientEngine::on_packets_out_cb`; a blocked batch arms the engine's own watch. -/
def QuicClientEngine.onPacketsOutCb (engine : QuicClientEngine) (specs : List OutSpec)
    (sendmsg : ℕ → SendmsgResult) : ℤ × Bool :=
  packetsOut engine.rawFd engine.raw6Fd specs sendmsg

/-- The packets that went out are the first `r`, and all three functions return `r`. -/
structure PacketsOutContract (fdV4 fdV6 : ℤ) (specs : List OutSpec)
    (sendmsg : ℕ → SendmsgResult) : Prop where
  first : ∀ i, i ∈ (sendSpecs fdV4 fdV6 specs sendmsg).handed ↔
    i < (sendSpecs fdV4 fdV6 specs sendmsg).sent
  server : ∀ demux : QuicPacketDemux, demux.rawFd = fdV4 → demux.raw6Fd = fdV6 →
    (QuicServerEngine.onPacketsOutCb demux specs sendmsg).1 =
      (sendSpecs fdV4 fdV6 specs sendmsg).sent
  client : ∀ engine : QuicClientEngine, engine.rawFd = fdV4 → engine.raw6Fd = fdV6 →
    (engine.onPacketsOutCb specs sendmsg).1 = (sendSpecs fdV4 fdV6 specs sendmsg).sent

/-- There is a socket for packet `i`, and the kernel takes it. -/
def GoesOut (fdV4 fdV6 : ℤ) (specs : List OutSpec) (sendmsg : ℕ → SendmsgResult) (i : ℕ) :
    Prop :=
  ∃ spec ∈ specs[i]?, 0 ≤ spec.fd fdV4 fdV6 ∧ sendmsg i = .sent

instance (fdV4 fdV6 : ℤ) (specs : List OutSpec) (sendmsg : ℕ → SendmsgResult) :
    DecidablePred (GoesOut fdV4 fdV6 specs sendmsg) :=
  fun i => inferInstanceAs (Decidable (∃ spec ∈ specs[i]?, _))

variable {fdV4 fdV6 : ℤ} {specs : List OutSpec} {sendmsg : ℕ → SendmsgResult}

theorem GoesOut.lt {i : ℕ} (out : GoesOut fdV4 fdV6 specs sendmsg i) : i < specs.length := by
  rcases out with ⟨spec, found, -⟩
  exact (List.getElem?_eq_some_iff.mp found).1

theorem goesOut_append_iff (spec : OutSpec) (i : ℕ) :
    GoesOut fdV4 fdV6 (specs ++ [spec]) sendmsg i ↔
      GoesOut fdV4 fdV6 specs sendmsg i ∨
        i = specs.length ∧ 0 ≤ spec.fd fdV4 fdV6 ∧ sendmsg i = .sent := by
  rcases Nat.lt_trichotomy i specs.length with old | rfl | beyond
  · rw [GoesOut, List.getElem?_append_left old, ← GoesOut]
    simp [old.ne]
  · simp [GoesOut]
  · simp only [beyond.ne', false_and, or_false]
    constructor
    · intro out
      have bound := out.lt
      rw [List.length_append, List.length_singleton] at bound
      omega
    · intro out
      have bound := out.lt
      omega

theorem sendSpecs_append (specs : List OutSpec) (spec : OutSpec) :
    sendSpecs fdV4 fdV6 (specs ++ [spec]) sendmsg =
      sendSpec fdV4 fdV6 sendmsg (sendSpecs fdV4 fdV6 specs sendmsg) (spec, specs.length) := by
  rw [sendSpecs, List.zipIdx_append, List.foldl_append, ← sendSpecs]
  simp

/-- What the loop has done with the packets before it. -/
structure LoopInvariant (out : ℕ → Prop) (loop : SendLoop) : Prop where
  handed : ∀ i, i ∈ loop.handed ↔ out i
  nodup : loop.handed.Nodup
  sent : loop.sent = loop.handed.length

theorem LoopInvariant.sendSpec {loop : SendLoop}
    (holds : LoopInvariant (GoesOut fdV4 fdV6 specs sendmsg) loop) (spec : OutSpec) :
    LoopInvariant (GoesOut fdV4 fdV6 (specs ++ [spec]) sendmsg)
      (sendSpec fdV4 fdV6 sendmsg loop (spec, specs.length)) := by
  by_cases takes : 0 ≤ spec.fd fdV4 fdV6 ∧ sendmsg specs.length = .sent
  · rw [ReverseProxy.sendSpec, if_neg (by omega), takes.2]
    refine ⟨?_, ?_, ?_⟩
    · intro i
      rw [List.mem_append, List.mem_singleton, holds.handed, goesOut_append_iff]
      refine or_congr_right ⟨?_, And.left⟩
      rintro rfl
      exact ⟨rfl, takes⟩
    · have fresh : specs.length ∉ loop.handed := by
        intro again
        exact lt_irrefl _ ((holds.handed _).mp again).lt
      have nodup := holds.nodup.concat fresh
      rw [List.concat_eq_append] at nodup
      exact nodup
    · rw [holds.sent, List.length_append, List.length_singleton]
  · -- the packet is skipped, whether for its family or for the result of the call
    have same : ∀ i, i ∈ loop.handed ↔ GoesOut fdV4 fdV6 (specs ++ [spec]) sendmsg i := by
      intro i
      rw [holds.handed, goesOut_append_iff, or_iff_left]
      rintro ⟨rfl, taken⟩
      exact takes taken
    rw [ReverseProxy.sendSpec]
    split_ifs with noFd
    · exact ⟨same, holds.nodup, holds.sent⟩
    · cases result : sendmsg specs.length with
      | sent => exact absurd ⟨not_lt.mp noFd, result⟩ takes
      | wouldBlock => exact ⟨same, holds.nodup, holds.sent⟩
      | failed => exact ⟨same, holds.nodup, holds.sent⟩

theorem loopInvariant_sendSpecs (specs : List OutSpec) :
    LoopInvariant (GoesOut fdV4 fdV6 specs sendmsg) (sendSpecs fdV4 fdV6 specs sendmsg) := by
  induction specs using List.reverseRecOn with
  | nil =>
    refine ⟨?_, List.nodup_nil, rfl⟩
    intro i
    simp [sendSpecs, GoesOut]
  | append_singleton specs spec ih =>
    rw [sendSpecs_append]
    exact ih.sendSpec spec

/-- A finite set of numbers is an initial one exactly if it is closed downwards. -/
theorem mem_iff_lt_card_iff (s : Finset ℕ) :
    (∀ i, i ∈ s ↔ i < s.card) ↔ ∀ j ∈ s, ∀ i < j, i ∈ s := by
  constructor
  · intro counts j out i earlier
    exact (counts i).mpr (lt_trans earlier ((counts j).mp out))
  · intro closed i
    constructor
    · intro out
      have upTo : Finset.range (i + 1) ⊆ s := by
        intro j isBelow
        rcases Nat.lt_succ_iff_lt_or_eq.mp (Finset.mem_range.mp isBelow) with earlier | rfl
        · exact closed i out j earlier
        · exact out
      simpa using Finset.card_le_card upTo
    · intro counted
      by_contra missing
      have before : s ⊆ Finset.range i := by
        intro j out
        rw [Finset.mem_range]
        by_contra notBefore
        rcases Nat.lt_or_eq_of_le (not_lt.mp notBefore) with later | rfl
        · exact missing (closed j out i later)
        · exact missing out
      have few := Finset.card_le_card before
      rw [Finset.card_range] at few
      omega

theorem LoopInvariant.initial_iff {out : ℕ → Prop} {loop : SendLoop}
    (holds : LoopInvariant out loop) :
    (∀ i, i ∈ loop.handed ↔ i < loop.sent) ↔ ∀ j, out j → ∀ i < j, out i := by
  have initial := mem_iff_lt_card_iff loop.handed.toFinset
  simp only [List.toFinset_card_of_nodup holds.nodup, List.mem_toFinset, ← holds.sent] at initial
  rw [initial]
  simp only [holds.handed]

theorem asInt_eq_self_iff (count : ℕ) : asInt count = count ↔ count < 2 ^ 31 := by
  unfold asInt
  split <;> omega

theorem fst_packetsOut_eq_iff :
    (packetsOut fdV4 fdV6 specs sendmsg).1 = (sendSpecs fdV4 fdV6 specs sendmsg).sent ↔
      (sendSpecs fdV4 fdV6 specs sendmsg).sent < 2 ^ 31 := by
  rw [packetsOut, asInt_eq_self_iff]

/--
The batch is accounted for exactly if no packet goes out after one that does not, and the
number of those that do fits an `int`.
-/
theorem packetsOutContract_iff (fdV4 fdV6 : ℤ) (specs : List OutSpec)
    (sendmsg : ℕ → SendmsgResult) :
    PacketsOutContract fdV4 fdV6 specs sendmsg ↔
      ∀ j, GoesOut fdV4 fdV6 specs sendmsg j →
        j + 1 < 2 ^ 31 ∧ ∀ i < j, GoesOut fdV4 fdV6 specs sendmsg i := by
  have holds : LoopInvariant (GoesOut fdV4 fdV6 specs sendmsg) _ := loopInvariant_sendSpecs specs
  constructor
  · rintro ⟨first, server, -⟩ j out
    have fits : (sendSpecs fdV4 fdV6 specs sendmsg).sent < 2 ^ 31 :=
      fst_packetsOut_eq_iff.mp (server { rawFd := fdV4, raw6Fd := fdV6 } rfl rfl)
    have counted := (first j).mp ((holds.handed j).mpr out)
    exact ⟨by omega, holds.initial_iff.mp first j out⟩
  · intro condition
    have first := holds.initial_iff.mpr (fun j out => (condition j out).2)
    have fits : (sendSpecs fdV4 fdV6 specs sendmsg).sent < 2 ^ 31 := by
      by_contra tooMany
      have last := (first (2 ^ 31 - 1)).mpr (by omega)
      have small := (condition _ ((holds.handed _).mp last)).1
      omega
    have returned := fst_packetsOut_eq_iff.mpr fits
    refine ⟨first, ?_, ?_⟩
    · rintro demux rfl rfl
      exact returned
    · rintro engine rfl rfl
      exact returned

/-- A packet that the kernel does not take at once, before one that it does. -/
theorem blockedFirst_not_packetsOutContract :
    ¬PacketsOutContract 3 (-1) [⟨.inet, [ascii "a"]⟩, ⟨.inet, [ascii "b"]⟩]
      (fun i => if i = 0 then .wouldBlock else .sent) := by
  intro contract
  have taken : 1 ∈ (sendSpecs 3 (-1) [⟨.inet, [ascii "a"]⟩, ⟨.inet, [ascii "b"]⟩]
      (fun i => if i = 0 then .wouldBlock else .sent)).handed := by
    decide
  exact absurd ((contract.first 1).mp taken) (by decide)

end ReverseProxy
